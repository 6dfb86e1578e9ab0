import RecordSchema.Json.Basic

namespace RecordSchema.Json

def numberLayout : Layout :=
  ⟨.toEven, -5, 15, true, true⟩

def integerText (i : Int) : List Char :=
  Layout.signed (decide (i < 0)) (Nat.toDigits 10 i.natAbs)

def binaryText : Number → List Char
  | .nan => "null".toList
  | .infinite _ => "null".toList
  | .finite negative units _ =>
    Layout.signed negative (if units = 0 then "0.0".toList else numberLayout.magnitude units)

def numberText : JsonNumber → List Char
  | .integer i => integerText i
  | .binary n => binaryText n

def hexDigits (n : Nat) : List Char :=
  [Nat.digitChar (n / 16 % 16), Nat.digitChar (n % 16)]

def escape (c : Char) : List Char :=
  match c with
  | '"' => ['\\', '"']
  | '\\' => ['\\', '\\']
  | '\x08' => ['\\', 'b']
  | '\x0c' => ['\\', 'f']
  | '\n' => ['\\', 'n']
  | '\r' => ['\\', 'r']
  | '\t' => ['\\', 't']
  | c => if c.toNat < 32 then ['\\', 'u', '0', '0'] ++ hexDigits c.toNat else [c]

def stringText (s : String) : List Char :=
  '"' :: (s.toList.flatMap escape ++ ['"'])

mutual

def compact : Json → List Char
  | null => "null".toList
  | bool b => if b then "true".toList else "false".toList
  | number n => numberText n
  | string s => stringText s
  | array items => '[' :: (List.intercalate [','] (compactItems items) ++ [']'])
  | object members => '\x7b' :: (List.intercalate [','] (compactMembers members) ++ ['\x7d'])

def compactItems : List Json → List (List Char)
  | [] => []
  | j :: r => compact j :: compactItems r

def compactMembers : List (String × Json) → List (List Char)
  | [] => []
  | (k, j) :: r => (stringText k ++ ':' :: compact j) :: compactMembers r

end

def block (level : Nat) (opening closing : Char) (lines : List (List Char)) : List Char :=
  let indent (n : Nat) := '\n' :: List.replicate (2 * n) ' '
  if lines.isEmpty then [opening, closing]
  else
    opening :: (List.intercalate [','] (lines.map (indent (level + 1) ++ ·)) ++
      indent level ++ [closing])

mutual

def pretty (level : Nat) : Json → List Char
  | array items => block level '[' ']' (prettyItems (level + 1) items)
  | object members => block level '\x7b' '\x7d' (prettyMembers (level + 1) members)
  | j => compact j

def prettyItems (level : Nat) : List Json → List (List Char)
  | [] => []
  | j :: r => pretty level j :: prettyItems level r

def prettyMembers (level : Nat) : List (String × Json) → List (List Char)
  | [] => []
  | (k, j) :: r => (stringText k ++ ':' :: ' ' :: pretty level j) :: prettyMembers level r

end

def line (j : Json) : String :=
  String.ofList j.compact

def indented (j : Json) : String :=
  String.ofList (j.pretty 0)

end RecordSchema.Json
