import RecordSchema.Number.Basic

namespace RecordSchema

structure Numeral where
  whole : List Char
  fraction : Option (List Char)
  exponent : Option (Bool × List Char)

namespace Numeral

def natOfDigits (digits : List Char) : Nat :=
  Nat.ofDigitChars 10 digits 0

def digit? (radix : Nat) (c : Char) : Option Nat :=
  let d :=
    if c.isDigit then c.toNat - 48
    else if c.isLower then c.toNat - 87
    else if c.isUpper then c.toNat - 55
    else radix
  if d < radix then some d else none

def natOfRadix? (radix : Nat) (digits : List Char) : Option Nat :=
  digits.foldlM (fun n c => (digit? radix c).map (n * radix + ·)) 0

def scanSign : List Char → Bool × List Char
  | '-' :: r => (true, r)
  | '+' :: r => (false, r)
  | r => (false, r)

def scanFraction : List Char → Option (List Char) × List Char
  | '.' :: r => (some (r.takeWhile Char.isDigit), r.dropWhile Char.isDigit)
  | r => (none, r)

def scanExponent : List Char → Option (Bool × List Char) × List Char
  | c :: r =>
    if c = 'e' ∨ c = 'E' then
      let (negative, digits) := scanSign r
      (some (negative, digits.takeWhile Char.isDigit), digits.dropWhile Char.isDigit)
    else (none, c :: r)
  | [] => (none, [])

def scan (text : List Char) : Numeral × List Char :=
  let (fraction, r) := scanFraction (text.dropWhile Char.isDigit)
  let (exponent, rest) := scanExponent r
  (⟨text.takeWhile Char.isDigit, fraction, exponent⟩, rest)

def fractionDigits (n : Numeral) : List Char :=
  n.fraction.getD []

def exponentValue (n : Numeral) : Int :=
  match n.exponent with
  | some (true, digits) => -(natOfDigits digits : Int)
  | some (false, digits) => natOfDigits digits
  | none => 0

def toNumber (negative : Bool) (n : Numeral) : Number :=
  .ofDecimal negative (natOfDigits (n.whole ++ n.fractionDigits))
    (n.exponentValue - n.fractionDigits.length)

def hasExponentDigits (n : Numeral) : Bool :=
  match n.exponent with
  | some (_, digits) => !digits.isEmpty
  | none => true

def hasDigits (n : Numeral) : Bool :=
  !(n.whole ++ n.fractionDigits).isEmpty

def decimal? (text : List Char) : Option Number :=
  let (negative, r) := scanSign text
  let (n, rest) := scan r
  if rest.isEmpty && n.hasDigits && n.hasExponentDigits then some (n.toNumber negative) else none

end Numeral

end RecordSchema
