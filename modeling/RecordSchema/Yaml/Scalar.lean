import RecordSchema.Json.Number

namespace RecordSchema.Yaml

inductive Scalar where
  | null
  | bool (b : Bool)
  | integer (i : Int)
  | number (n : Number)
  | string

namespace Scalar

def isNull (text : List Char) : Bool :=
  ["~", "null", "Null", "NULL"].contains (String.ofList text)

def bool? (text : List Char) : Option Bool :=
  let s := String.ofList text
  if ["true", "True", "TRUE"].contains s then some true
  else if ["false", "False", "FALSE"].contains s then some false
  else none

def isZeroLed (text : List Char) : Bool :=
  match (Numeral.scanSign text).2 with
  | '0' :: r => !r.isEmpty && r.all Char.isDigit
  | _ => false

def nat? (radix : Nat) (digits : List Char) : Option Nat :=
  if digits.isEmpty then none else Numeral.natOfRadix? radix digits

def radixNat? : List Char → Option Nat
  | '0' :: 'x' :: r => nat? 16 r
  | '0' :: 'o' :: r => nat? 8 r
  | '0' :: 'b' :: r => nat? 2 r
  | r => nat? 10 r

def integer? (text : List Char) : Option Int :=
  if isZeroLed text then none
  else
    let (negative, digits) := Numeral.scanSign text
    match radixNat? digits with
    | some n =>
      if negative then if n ≤ Nat.pow 2 127 then some (-n) else none
      else if n < Nat.pow 2 128 then some n else none
    | none => none

def number? (text : List Char) : Option Number :=
  let s := String.ofList text
  if [".nan", ".NaN", ".NAN"].contains s then some .nan
  else if ["-.inf", "-.Inf", "-.INF"].contains s then some (.infinite true)
  else if [".inf", ".Inf", ".INF", "+.inf", "+.Inf", "+.INF"].contains s then
    some (.infinite false)
  else match Numeral.decimal? text with
    | some (.finite negative units fits) => some (.finite negative units fits)
    | _ => none

def ofPlain (text : List Char) : Scalar :=
  if text.isEmpty || isNull text then null
  else match bool? text with
    | some b => bool b
    | none =>
      match integer? text with
      | some i => integer i
      | none =>
        if isZeroLed text then string
        else match number? text with
          | some n => number n
          | none => string

def integerJson? (i : Int) : Option Json :=
  if -(Nat.pow 2 63 : Int) ≤ i ∧ i < (Nat.pow 2 64 : Int) then some (.number (.integer i))
  else none

def numberJson : Number → Json
  | .finite negative units fits => .number (.binary (.finite negative units fits))
  | _ => .null

def toJson? (text : List Char) : Option Json :=
  match ofPlain text with
  | null => some .null
  | bool b => some (.bool b)
  | integer i => integerJson? i
  | number n => some (numberJson n)
  | string => some (.string (String.ofList text))

def isAmbiguous (text : List Char) : Bool :=
  match ofPlain text with
  | string => isZeroLed text
  | _ => true

end Scalar

end RecordSchema.Yaml
