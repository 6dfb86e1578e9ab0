import RecordSchema.Number.Layout
import RecordSchema.Number.Numeral
import RecordSchema.Text.Blank

namespace RecordSchema.Number

def textLayout : Layout :=
  ⟨.up, -6, 20, false, true⟩

def toText : Number → String
  | .nan => "NaN"
  | .infinite negative => if negative then "-Infinity" else "Infinity"
  | .finite negative units _ =>
    if units = 0 then "0"
    else String.ofList (Layout.signed negative (textLayout.magnitude units))

def radix? : Char → Option Nat
  | 'x' => some 16
  | 'X' => some 16
  | 'o' => some 8
  | 'O' => some 8
  | 'b' => some 2
  | 'B' => some 2
  | _ => none

def word64? (radix : Nat) (text : List Char) : Option Nat :=
  let digits :=
    match text with
    | '+' :: c :: r => c :: r
    | _ => text
  if digits.isEmpty then none
  else (Numeral.natOfRadix? radix digits).filter (· < Nat.pow 2 64)

def ofRadixDigits (radix : Nat) (digits : List Char) : Number :=
  if digits.isEmpty || !digits.all Char.isAlphanum then .nan
  else ((word64? radix digits).map ofNat).getD .nan

def ofWord? (letters : List Char) : Option Number :=
  let word := letters.map Char.toLower
  if word = "inf".toList ∨ word = "infinity".toList then some (.infinite false)
  else if word = "nan".toList then some .nan
  else none

def parse? (text : List Char) : Option Number :=
  match Numeral.decimal? text with
  | some n => some n
  | none =>
    let (negative, letters) := Numeral.scanSign text
    (ofWord? letters).map fun n => if negative then n.neg else n

def isForeign (c : Char) : Bool :=
  c.isAlpha && c != 'e' && c != 'E'

def ofPlain (text : List Char) : Number :=
  if text.any isForeign then .nan else (parse? text).getD .nan

def ofTrimmed (text : List Char) : Number :=
  if text.isEmpty then .zero false
  else if text = "Infinity".toList ∨ text = "+Infinity".toList then .infinite false
  else if text = "-Infinity".toList then .infinite true
  else match text with
    | '0' :: c :: digits =>
      match radix? c with
      | some radix => ofRadixDigits radix digits
      | none => ofPlain text
    | _ => ofPlain text

def ofText (text : String) : Number :=
  ofTrimmed (Text.trim text.toList)

end RecordSchema.Number
