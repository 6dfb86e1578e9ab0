import RecordSchema.Yaml.Fold

namespace RecordSchema.Yaml.Block

inductive Chomp where
  | strip
  | clip
  | keep
  deriving DecidableEq

structure Header where
  chomp : Chomp
  indent : Nat

def chomp? : List Char → Option (Chomp × List Char)
  | '+' :: r => some (.keep, r)
  | '-' :: r => some (.strip, r)
  | _ => none

def indent? : List Char → Option (Nat × List Char)
  | [] => some (0, [])
  | c :: r =>
    if c.isDigit then
      if c = '0' then none else some (c.toNat - 48, r)
    else some (0, c :: r)

def header? (text : List Char) : Option (Header × List Char) := do
  match chomp? text with
  | some (chomp, r) =>
    let (indent, r) ← indent? r
    return (⟨chomp, indent⟩, r)
  | none =>
    let (indent, r) ← indent? text
    if indent = 0 then return (⟨.clip, 0⟩, r)
    else
      match chomp? r with
      | some (chomp, r) => return (⟨chomp, indent⟩, r)
      | none => return (⟨.clip, indent⟩, r)

def endOfLine? (text : List Char) : Option (List Char) :=
  let r := text.dropWhile isBlank
  let r := if r.head? = some '#' then r.dropWhile fun c => !isBreak c else r
  match r with
  | [] => some []
  | c :: r => if isBreak c then some r else none

structure Lines where
  text : List Char
  last : List Char
  more : List Char
  indented : Bool

namespace Lines

def empty : Lines :=
  ⟨[], [], [], false⟩

/-- Begins a line with `c`. Line ends before it are folded unless one of the two lines around them
starts with a blank. -/
def openLine (folds : Bool) (lines : Lines) (c : Char) : Lines :=
  let joint :=
    if folds && lines.last == ['\n'] && !lines.indented && !isBlank c then
      if lines.more.isEmpty then [' '] else []
    else lines.last
  ⟨c :: (lines.more ++ joint ++ lines.text), [], [], isBlank c⟩

def add (lines : Lines) (c : Char) : Lines :=
  { lines with text := c :: lines.text }

def closeLine (lines : Lines) (c : Char) : Lines :=
  { lines with last := [c] }

def skipLine (lines : Lines) (c : Char) : Lines :=
  { lines with more := c :: lines.more }

def chomped (lines : Lines) (chomp : Chomp) : List Char :=
  match chomp with
  | .strip => lines.text
  | .clip => lines.last ++ lines.text
  | .keep => lines.more ++ lines.last ++ lines.text

end Lines

/-- The indentation of the lines: as announced, or that of the first line, which is not left of
`least` and not left of an empty line before it. -/
def settled (indent least widest : Nat) : Nat :=
  if indent = 0 then max (max widest least) 1 else indent

def linesFrom (folds : Bool) (least : Nat) (indent widest : Nat) (inLine : Bool) (lines : Lines)
    (place : Place) : List Char → Option (Lines × Cursor)
  | [] => some (lines, ⟨place, []⟩)
  | c :: r =>
    if inLine then
      if isBreak c then
        linesFrom folds least indent widest false (lines.closeLine c) (place.past c) r
      else linesFrom folds least indent widest true (lines.add c) (place.past c) r
    else if (indent = 0 ∨ place.column < indent) ∧ c = ' ' then
      linesFrom folds least indent widest false lines (place.past c) r
    else if (indent = 0 ∨ place.column < indent) ∧ c = '\t' then none
    else
      let widest := max widest place.column
      if isBreak c then
        linesFrom folds least indent widest false (lines.skipLine c) (place.past c) r
      else
        let indent := settled indent least widest
        if place.column = indent then
          linesFrom folds least indent widest true (lines.openLine folds c) (place.past c) r
        else some (lines, ⟨place, c :: r⟩)

def scan? (outer : Int) (cursor : Cursor) : Option Scanned :=
  match cursor.rest with
  | [] => none
  | c :: r => do
    let (header, r) ← header? r
    let below := cursor.goTo (← endOfLine? r)
    let least := (outer + 1).toNat
    let indent := if header.indent = 0 then 0 else (max outer 0).toNat + header.indent
    let (lines, stop) ←
      linesFrom (c == '>') least indent 0 false .empty below.place below.rest
    return ⟨(lines.chomped header.chomp).reverse, stop, true⟩

end RecordSchema.Yaml.Block
