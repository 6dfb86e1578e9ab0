import RecordSchema.Json.Text
import RecordSchema.Yaml.Page
import RecordSchema.Yaml.Style

namespace RecordSchema.Yaml

def numberLayout : Layout :=
  { Json.numberLayout with plus := false }

def numberText : JsonNumber → List Char
  | .integer i => Json.integerText i
  | .binary (.finite negative units _) =>
    Layout.signed negative (if units = 0 then "0.0".toList else numberLayout.magnitude units)
  | .binary .nan => ".nan".toList
  | .binary (.infinite negative) => Layout.signed negative ".inf".toList

def namedEscape? : Char → Option Char
  | '\x00' => some '0'
  | '\x07' => some 'a'
  | '\x08' => some 'b'
  | '\t' => some 't'
  | '\n' => some 'n'
  | '\x0b' => some 'v'
  | '\x0c' => some 'f'
  | '\r' => some 'r'
  | '\x1b' => some 'e'
  | '"' => some '"'
  | '\\' => some '\\'
  | '\u0085' => some 'N'
  | '\u2028' => some 'L'
  | '\u2029' => some 'P'
  | _ => none

def capitalHex (width n : Nat) : List Char :=
  let digits := (Nat.toDigits 16 n).map Char.toUpper
  List.replicate (width - digits.length) '0' ++ digits

def doubleEscape (c : Char) : List Char :=
  match namedEscape? c with
  | some d => ['\\', d]
  | none =>
    if Style.isPrintable c then [c]
    else if c.toNat ≤ 0xFF then '\\' :: 'x' :: capitalHex 2 c.toNat
    else '\\' :: 'u' :: capitalHex 4 c.toNat

namespace Page

def plain (page : Page) (text : List Char) : Page :=
  let page := if page.spaced then page else page.put ' '
  (page.putAll text).closeScalar

def singleFrom (column : Nat) (broken : Bool) (page : Page) : List Char → Page
  | [] => if broken then page.indent column else page
  | c :: r =>
    if isBreak c then singleFrom column true (page.content c) r
    else
      let page := if broken then page.indent column else page
      let page := if c = '\'' then page.content c else page
      singleFrom column false (page.content c) r

def single (column : Nat) (page : Page) (text : List Char) : Page :=
  let page := singleFrom column false (page.mark ['\''] true false) text
  (page.mark ['\''] false false).closeScalar

def double (page : Page) (text : List Char) : Page :=
  let page := (page.mark ['"'] true false).putAll (text.flatMap doubleEscape)
  (page.mark ['"'] false false).closeScalar

def literalHints (text : List Char) : List Char :=
  let shown := !text.head?.any fun c => c == ' ' || isBreak c
  let kept :=
    match text.reverse with
    | [] => ['-']
    | [c] => if isBreak c then ['+'] else ['-']
    | c :: d :: _ => if !isBreak c then ['-'] else if isBreak d then ['+'] else []
  (if shown then [] else ['2']) ++ kept

def literalFrom (column : Nat) (broken : Bool) (page : Page) : List Char → Page
  | [] => page
  | c :: r =>
    if isBreak c then literalFrom column true (page.content c) r
    else
      let page := if broken then page.indent column else page
      literalFrom column false (page.content c) r

def literal (column : Nat) (page : Page) (text : List Char) : Page :=
  let page := (page.mark ('|' :: literalHints text) true false).put '\n'
  literalFrom column true { page with spaced := true, fresh := true } text

def string (column : Nat) (page : Page) (s : String) : Page :=
  let text := s.toList
  match Style.ofText text with
  | .plain => page.plain text
  | .single => page.single column text
  | .double => page.double text
  | .literal => page.literal column text

end Page

/-- A key of one line and at most 128 bytes has its colon behind it; before another there is a
question mark. -/
def isSimpleKey (key : String) : Bool :=
  !key.toList.any Style.breaksLine && key.utf8ByteSize ≤ 128

def deeper : Option Nat → Nat
  | none => 0
  | some column => column + 2

namespace Page

def key (column : Nat) (page : Page) (k : String) : Page :=
  let page := page.indent column
  if isSimpleKey k then (page.string (column + 2) k).mark [':'] false false
  else
    let page := (page.mark ['?'] true true).string (column + 2) k
    (page.indent column).mark [':'] true true

mutual

/-- A tree inside a block of column `outer`. As the value of a member behind a colon a sequence
stands in the column of the block. -/
def node (outer : Option Nat) (isMember : Bool) (page : Page) : Json → Page
  | .null => page.plain "null".toList
  | .bool b => page.plain (if b then "true" else "false").toList
  | .number n => page.plain (numberText n)
  | .string s => page.string ((outer.getD 0) + 2) s
  | .array items =>
    if items.isEmpty then page.mark ['[', ']'] true false
    else
      let column := if isMember && !page.fresh then outer.getD 0 else deeper outer
      itemLines column page items
  | .object members =>
    if members.isEmpty then page.mark ['\x7b', '\x7d'] true false
    else memberLines (deeper outer) page members

def itemLines (column : Nat) (page : Page) : List Json → Page
  | [] => page
  | j :: r =>
    let page := (page.indent column).mark ['-'] true true
    itemLines column (node (some column) false page j) r

def memberLines (column : Nat) (page : Page) : List (String × Json) → Page
  | [] => page
  | (k, j) :: r => memberLines column (node (some column) true (page.key column k) j) r

end

end Page

def document (j : Json) : String :=
  ((Page.blank.node none false j).indent 0).toString

end RecordSchema.Yaml
