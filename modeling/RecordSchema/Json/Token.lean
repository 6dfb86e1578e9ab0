import RecordSchema.Json.Number

namespace RecordSchema

abbrev Rest (text : List Char) := { r : List Char // r.length < text.length }

namespace Json

inductive Token where
  | openArray
  | closeArray
  | openObject
  | closeObject
  | comma
  | colon
  | string (s : Option String)
  | atom (j : Json)

def codeUnit? : (text : List Char) → Option (Nat × Rest text)
  | a :: b :: c :: d :: r =>
    match Numeral.digit? 16 a, Numeral.digit? 16 b, Numeral.digit? 16 c, Numeral.digit? 16 d with
    | some a', some b', some c', some d' =>
      some (((a' * 16 + b') * 16 + c') * 16 + d', ⟨r, by simp only [List.length_cons]; omega⟩)
    | _, _, _, _ => none
  | _ => none

def lowSurrogate? : (text : List Char) → Option (Nat × Rest text)
  | '\\' :: 'u' :: r =>
    match codeUnit? r with
    | some (low, ⟨r', h⟩) =>
      if 0xDC00 ≤ low ∧ low ≤ 0xDFFF then
        some (low, ⟨r', Nat.lt_succ_of_lt (Nat.lt_succ_of_lt h)⟩)
      else none
    | none => none
  | _ => none

/-- The character that an escape stands for, after its `\u`. Code units above `U+FFFF` come in
pairs, and half a pair stands for no character. -/
def unicodeEscape? (text : List Char) : Option (Option Char × Rest text) :=
  match codeUnit? text with
  | none => none
  | some (unit, ⟨r, h⟩) =>
    if 0xDC00 ≤ unit ∧ unit ≤ 0xDFFF then some (none, ⟨r, h⟩)
    else if 0xD800 ≤ unit ∧ unit ≤ 0xDBFF then
      match lowSurrogate? r with
      | some (low, ⟨r', h'⟩) =>
        some (some (Char.ofNat ((unit - 0xD800) * 1024 + (low - 0xDC00) + 0x10000)),
          ⟨r', Nat.lt_trans h' h⟩)
      | none => some (none, ⟨r, h⟩)
    else some (some (Char.ofNat unit), ⟨r, h⟩)

def letterEscape? : Char → Option Char
  | '"' => some '"'
  | '\\' => some '\\'
  | '/' => some '/'
  | 'b' => some '\x08'
  | 'f' => some '\x0c'
  | 'n' => some '\n'
  | 'r' => some '\r'
  | 't' => some '\t'
  | _ => none

def escape? : (text : List Char) → Option (Option Char × Rest text)
  | [] => none
  | c :: r =>
    if c = 'u' then
      match unicodeEscape? r with
      | some (d, ⟨r', h⟩) => some (d, ⟨r', Nat.lt_succ_of_lt h⟩)
      | none => none
    else (letterEscape? c).map fun d => (some d, ⟨r, by simp⟩)

def stringBody? (text : List Char) : Option (List (Option Char) × Rest text) :=
  match text with
  | [] => none
  | c :: r =>
    if c = '"' then some ([], ⟨r, by simp⟩)
    else if c = '\\' then
      match escape? r with
      | none => none
      | some (d, ⟨r', h⟩) =>
        match stringBody? r' with
        | none => none
        | some (ds, ⟨r'', h'⟩) =>
          some (d :: ds, ⟨r'', Nat.lt_succ_of_lt (Nat.lt_trans h' h)⟩)
    else if c.toNat < 32 then none
    else
      match stringBody? r with
      | none => none
      | some (ds, ⟨r', h⟩) => some (some c :: ds, ⟨r', Nat.lt_succ_of_lt h⟩)
termination_by text.length
decreasing_by all_goals simp only [List.length_cons]; omega

def string? (chars : List (Option Char)) : Option String :=
  (chars.mapM id).map String.ofList

def isNumeralChar (c : Char) : Bool :=
  c.isDigit || c == '-' || c == '+' || c == '.' || c == 'e' || c == 'E'

def numeral? (number : Bool → Numeral → Option JsonNumber) (text : List Char) :
    Option JsonNumber :=
  let (negative, r) := match text with
    | '-' :: r => (true, r)
    | r => (false, r)
  let (n, rest) := Numeral.scan r
  if rest.isEmpty && JsonNumber.wellFormed n then number negative n else none

def word? (text : List Char) : Option Json :=
  match String.ofList text with
  | "null" => some .null
  | "true" => some (.bool true)
  | "false" => some (.bool false)
  | _ => none

theorem length_dropWhile_lt (p : Char → Bool) (c : Char) (r : List Char) :
    (r.dropWhile p).length < (c :: r).length :=
  Nat.lt_succ_of_le (List.dropWhile_sublist p).length_le

def token? (number : Bool → Numeral → Option JsonNumber) (c : Char) (r : List Char) :
    Option (Token × Rest (c :: r)) :=
  match c with
  | '[' => some (.openArray, ⟨r, by simp⟩)
  | ']' => some (.closeArray, ⟨r, by simp⟩)
  | '\x7b' => some (.openObject, ⟨r, by simp⟩)
  | '\x7d' => some (.closeObject, ⟨r, by simp⟩)
  | ',' => some (.comma, ⟨r, by simp⟩)
  | ':' => some (.colon, ⟨r, by simp⟩)
  | '"' =>
    match stringBody? r with
    | some (s, ⟨r', h⟩) =>
      some (.string (string? s), ⟨r', Nat.lt_succ_of_lt h⟩)
    | none => none
  | c =>
    if c.isAlpha then
      (word? (c :: r.takeWhile Char.isAlpha)).map fun j =>
        (.atom j, ⟨r.dropWhile Char.isAlpha, length_dropWhile_lt _ _ _⟩)
    else
      (numeral? number (c :: r.takeWhile isNumeralChar)).map fun n =>
        (.atom (.number n), ⟨r.dropWhile isNumeralChar, length_dropWhile_lt _ _ _⟩)

def isSpace (c : Char) : Bool :=
  c == ' ' || c == '\t' || c == '\n' || c == '\r'

def tokens? (number : Bool → Numeral → Option JsonNumber) (text : List Char) :
    Option (List Token) :=
  match text with
  | [] => some []
  | c :: r =>
    if isSpace c then tokens? number r
    else
      match token? number c r with
      | some (t, rest) => (tokens? number rest.1).map (t :: ·)
      | none => none
termination_by text.length
decreasing_by
  · exact Nat.lt_succ_self _
  · exact rest.2

end Json

end RecordSchema
