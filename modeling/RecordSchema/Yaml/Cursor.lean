namespace RecordSchema.Yaml

structure Place where
  index : Nat
  line : Nat
  column : Nat

def isBlank (c : Char) : Bool :=
  c == ' ' || c == '\t'

/-- Characters that end a line. The two separators, unlike the line feed, are kept as text. -/
def isBreak (c : Char) : Bool :=
  c == '\n' || c == '\u2028' || c == '\u2029'

def isSpace (c : Char) : Bool :=
  isBlank c || isBreak c

def Place.past (p : Place) (c : Char) : Place :=
  if isBreak c then ⟨p.index + 1, p.line + 1, 0⟩ else ⟨p.index + 1, p.line, p.column + 1⟩

def endsWord : List Char → Bool
  | [] => true
  | c :: _ => isSpace c

def isMarker : List Char → Bool
  | '-' :: '-' :: '-' :: r => endsWord r
  | '.' :: '.' :: '.' :: r => endsWord r
  | _ => false

structure Cursor where
  place : Place
  rest : List Char

namespace Cursor

def atMarker (cursor : Cursor) : Bool :=
  cursor.place.column == 0 && isMarker cursor.rest

def advance (cursor : Cursor) : Nat → Cursor
  | 0 => cursor
  | n + 1 =>
    match cursor.rest with
    | [] => cursor
    | c :: r => advance ⟨cursor.place.past c, r⟩ n

def goTo (cursor : Cursor) (rest : List Char) : Cursor :=
  cursor.advance (cursor.rest.length - rest.length)

end Cursor

def isAllowed (c : Char) : Bool :=
  let n := c.toNat
  n == 9 || n == 10 || (0x20 ≤ n && n ≤ 0x7E) || n == 0x85 || (0xA0 ≤ n && n ≤ 0xFFFD) ||
    0x10000 ≤ n

def withLineFeeds : List Char → List Char
  | '\r' :: '\n' :: r => '\n' :: withLineFeeds r
  | '\r' :: r => '\n' :: withLineFeeds r
  | '\u0085' :: r => '\n' :: withLineFeeds r
  | c :: r => c :: withLineFeeds r
  | [] => []

end RecordSchema.Yaml
