import RecordSchema.Yaml.Scalar
import RecordSchema.Yaml.Token.Plain

namespace RecordSchema.Yaml

inductive Style where
  | plain
  | single
  | double
  | literal
  deriving DecidableEq

namespace Style

def isPrintable (c : Char) : Bool :=
  let n := c.toNat
  n == 10 || (0x20 ≤ n && n ≤ 0x7E) || (0xA0 ≤ n && n ≤ 0xFFFD && n != 0xFEFF) ||
    0x10000 ≤ n

def breaksLine (c : Char) : Bool :=
  isBreak c || c == '\r' || c == '\u0085'

def startsMarker : List Char → Bool
  | '-' :: '-' :: '-' :: _ => true
  | '.' :: '.' :: '.' :: _ => true
  | _ => false

def startsWithIndicator : List Char → Bool
  | [] => false
  | c :: r =>
    startsMarker (c :: r) ||
      (if c == '-' || c == '?' || c == ':' then endsWord r else Plain.isIndicator c)

def containsIndicator : List Char → Bool
  | [] => false
  | c :: r =>
    (match r with
      | ':' :: r' => endsWord r'
      | '#' :: _ => isSpace c
      | _ => false) ||
      containsIndicator r

def hasPair (p q : Char → Bool) : List Char → Bool
  | c :: d :: r => (p c && q d) || hasPair p q (d :: r)
  | _ => false

def isBlankChar (c : Char) : Bool :=
  c == ' '

def isClean (text : List Char) : Bool :=
  text.all isPrintable && !hasPair isBlankChar breaksLine text

def allowsPlain (text : List Char) : Bool :=
  isClean text && !text.any breaksLine && text.head? != some ' ' && text.getLast? != some ' ' &&
    !startsWithIndicator text && !containsIndicator text

def allowsSingle (text : List Char) : Bool :=
  isClean text && !hasPair breaksLine isBlankChar text

def allowsLiteral (text : List Char) : Bool :=
  isClean text && text.getLast? != some ' '

def ofText (text : List Char) : Style :=
  if text.contains '\n' then if allowsLiteral text then literal else double
  else if allowsPlain text && !Scalar.isAmbiguous text then plain
  else if allowsSingle text then single
  else double

end Style

end RecordSchema.Yaml
