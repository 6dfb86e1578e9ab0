import RecordSchema.Yaml.Token
import RecordSchema.Yaml.Token.Plain
import RecordSchema.Yaml.Token.Quoted

namespace RecordSchema.Yaml

/-- A place where a key may have started. -/
structure KeyStart where
  required : Bool
  before : Nat
  place : Place

structure Lexer where
  tokens : List Token
  count : Nat
  cursor : Cursor
  indent : Int
  outer : List Int
  keyAllowed : Bool
  keyStart : Option KeyStart
  /-- One for each open bracket: where a key may have started outside it. -/
  outerKeys : List (Option KeyStart)

namespace Lexer

def start (text : List Char) : Lexer :=
  ⟨[], 0, ⟨⟨0, 0, 0⟩, text⟩, -1, [], true, none, []⟩

def column (l : Lexer) : Nat :=
  l.cursor.place.column

def inFlow (l : Lexer) : Bool :=
  !l.outerKeys.isEmpty

def emit (l : Lexer) (t : Token) : Lexer :=
  { l with tokens := t :: l.tokens, count := l.count + 1 }

def emitAt (l : Lexer) (before : Nat) (t : Token) : Lexer :=
  { l with
    tokens := l.tokens.take (l.count - before) ++ t :: l.tokens.drop (l.count - before)
    count := l.count + 1 }

def take (l : Lexer) (width : Nat) (t : Token) : Lexer :=
  { l.emit t with cursor := l.cursor.advance width }

def allowKey (l : Lexer) (allowed : Bool) : Lexer :=
  { l with keyAllowed := allowed }

/-- Goes past spaces and comments. In blocks the end of a line allows a key, and a tabulator does
not stand where a key may. A mark of byte order may begin a line, and takes up a column. -/
def skipFrom (flow allowed comment : Bool) (place : Place) : List Char → Bool × Cursor
  | [] => (allowed, ⟨place, []⟩)
  | c :: r =>
    if isBreak c then skipFrom flow (allowed || !flow) false (place.past c) r
    else if comment || c == ' ' || (c == '\t' && (flow || !allowed)) ||
      (c == '\ufeff' && place.column == 0) then skipFrom flow allowed comment (place.past c) r
    else if c = '#' then skipFrom flow allowed true (place.past c) r
    else (allowed, ⟨place, c :: r⟩)

def skip (l : Lexer) : Lexer :=
  let (allowed, cursor) := skipFrom l.inFlow l.keyAllowed false l.cursor.place l.cursor.rest
  { l with keyAllowed := allowed, cursor }

def expireKey? (now : Place) : Option KeyStart → Option (Option KeyStart)
  | none => some none
  | some k =>
    if k.place.line < now.line ∨ k.place.index + 1024 < now.index then
      if k.required then none else some none
    else some (some k)

def expire? (l : Lexer) : Option Lexer := do
  let keyStart ← expireKey? l.cursor.place l.keyStart
  let outerKeys ← l.outerKeys.mapM (expireKey? l.cursor.place)
  return { l with keyStart, outerKeys }

def dropKey? (l : Lexer) : Option Lexer :=
  match l.keyStart with
  | some k => if k.required then none else some { l with keyStart := none }
  | none => some l

def keepKey? (l : Lexer) : Option Lexer :=
  if l.keyAllowed then do
    let l ← l.dropKey?
    let required := !l.inFlow && l.indent == l.column
    return { l with keyStart := some ⟨required, l.count, l.cursor.place⟩ }
  else some l

def blocksUpTo (column : Int) (indent : Int) : List Int → Int × List Int
  | [] => (indent, [])
  | next :: r => if column < indent then blocksUpTo column next r else (indent, next :: r)

def closeTo (l : Lexer) (column : Int) : Lexer :=
  if l.inFlow then l
  else
    let (indent, outer) := blocksUpTo column l.indent l.outer
    let closed := l.outer.length - outer.length
    { l with
      tokens := List.replicate closed .closeBlock ++ l.tokens
      count := l.count + closed
      indent, outer }

def openBlock (l : Lexer) (column before : Nat) (t : Token) : Lexer :=
  if l.inFlow || (column : Int) ≤ l.indent then l
  else { l.emitAt before t with indent := column, outer := l.indent :: l.outer }

def endBlocks? (l : Lexer) : Option Lexer := do
  return (← (l.closeTo (-1)).dropKey?).allowKey false

def directive? (l : Lexer) (r : List Char) : Option Lexer := do
  let l ← l.endBlocks?
  let (d, r) ← Property.directive? r
  return { l.emit (.directive d) with cursor := l.cursor.goTo r }

def marker? (l : Lexer) (t : Token) : Option Lexer := do
  return (← l.endBlocks?).take 3 t

def openBracket? (l : Lexer) (t : Token) : Option Lexer := do
  let l ← l.keepKey?
  let inner := (l.take 1 t).allowKey true
  return { inner with keyStart := none, outerKeys := l.keyStart :: l.outerKeys }

def closeBracket? (l : Lexer) (t : Token) : Option Lexer := do
  let l := ((← l.dropKey?).take 1 t).allowKey false
  match l.outerKeys with
  | [] => return l
  | k :: r => return { l with keyStart := k, outerKeys := r }

def comma? (l : Lexer) : Option Lexer := do
  return ((← l.dropKey?).take 1 .comma).allowKey true

def dash? (l : Lexer) : Option Lexer := do
  if !l.inFlow && !l.keyAllowed then none
  let l ← (l.openBlock l.column l.count .openBlockSequence).dropKey?
  return (l.take 1 .dash).allowKey true

def question? (l : Lexer) : Option Lexer := do
  if !l.inFlow && !l.keyAllowed then none
  let l ← (l.openBlock l.column l.count .openBlockMapping).dropKey?
  return (l.take 1 .key).allowKey !l.inFlow

/-- The colon of a value. It makes a key of what may be one, and else follows a key that has a
question mark or is missing. -/
def colon? (l : Lexer) : Option Lexer :=
  match l.keyStart with
  | some k =>
    let l := (l.emitAt k.before .key).openBlock k.place.column k.before .openBlockMapping
    some (({ l with keyStart := none }.take 1 .value).allowKey false)
  | none =>
    if !l.inFlow && !l.keyAllowed then none
    else
      let l := l.openBlock l.column l.count .openBlockMapping
      some ((l.take 1 .value).allowKey !l.inFlow)

def word? (l : Lexer) (t : Token) (r : List Char) : Option Lexer := do
  let l ← l.keepKey?
  return { (l.emit t).allowKey false with cursor := l.cursor.goTo r }

def scalar? (l : Lexer) (plain : Bool) (s : Scanned) : Option Lexer := do
  let l ← l.keepKey?
  let t := Token.scalar plain (String.ofList s.text)
  return { (l.emit t).allowKey s.lineEnded with cursor := s.stop }

def blockScalar? (l : Lexer) : Option Lexer := do
  let l ← l.dropKey?
  let s ← Block.scan? l.indent l.cursor
  let t := Token.scalar false (String.ofList s.text)
  return { (l.emit t).allowKey true with cursor := s.stop }

def step? (l : Lexer) (c : Char) (r : List Char) : Option Lexer :=
  if l.column = 0 ∧ c = '%' then l.directive? r
  else if l.cursor.atMarker then l.marker? (if c = '-' then .documentStart else .documentEnd)
  else if c = '[' then l.openBracket? .openSequence
  else if c = '\x7b' then l.openBracket? .openMapping
  else if c = ']' then l.closeBracket? .closeSequence
  else if c = '\x7d' then l.closeBracket? .closeMapping
  else if c = ',' then l.comma?
  else if c = '-' ∧ endsWord r then l.dash?
  else if c = '?' ∧ (l.inFlow || endsWord r) then l.question?
  else if c = ':' ∧ (l.inFlow || endsWord r) then l.colon?
  else if c = '*' then (Property.name? r).bind fun (name, r) => l.word? (.reference name) r
  else if c = '&' then (Property.name? r).bind fun (name, r) => l.word? (.anchor name) r
  else if c = '!' then (Property.tag? l.inFlow (c :: r)).bind fun (t, r) => l.word? (.tag t) r
  else if (c = '|' ∨ c = '>') ∧ !l.inFlow then l.blockScalar?
  else if c = '\'' ∨ c = '"' then (Quoted.scan? l.cursor).bind (l.scalar? false)
  else if Plain.starts l.inFlow (c :: r) then
    (Plain.scan? l.inFlow (l.indent + 1) l.cursor).bind (l.scalar? true)
  else none

def finish? (l : Lexer) : Option (List Token) := do
  return (← (l.closeTo (-1)).dropKey?).tokens.reverse

/-- Takes tokens up to the end. Each takes up a character, so that the length of the text is fuel
enough. -/
def run? : Nat → Lexer → Option (List Token)
  | 0, _ => none
  | fuel + 1, l => do
    let l ← l.skip.expire?
    let l := l.closeTo l.column
    match l.cursor.rest with
    | [] => l.finish?
    | c :: r => run? fuel (← l.step? c r)

end Lexer

def tokens? (text : String) : Option (List Token) :=
  let chars := withLineFeeds text.toList
  if chars.all isAllowed then (Lexer.start chars).run? (chars.length + 1) else none

end RecordSchema.Yaml
