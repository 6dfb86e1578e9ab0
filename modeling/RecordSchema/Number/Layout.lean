import RecordSchema.Number.Decimal

namespace RecordSchema

structure Layout where
  tie : Tie
  /-- The least and the greatest power of ten of a first digit that is written positionally. -/
  least : Int
  greatest : Int
  pointZero : Bool
  plus : Bool

namespace Layout

def positional (layout : Layout) (digits : List Char) (exponent : Int) : List Char :=
  let point := exponent + digits.length
  if 0 ≤ exponent then
    digits ++ List.replicate exponent.toNat '0' ++ (if layout.pointZero then ['.', '0'] else [])
  else if 0 < point then
    digits.take point.toNat ++ '.' :: digits.drop point.toNat
  else
    '0' :: '.' :: (List.replicate (-point).toNat '0' ++ digits)

def scientific (layout : Layout) (digits : List Char) (power : Int) : List Char :=
  digits.take 1 ++ (if digits.length ≤ 1 then [] else '.' :: digits.drop 1) ++
    'e' :: ((if power < 0 then ['-'] else if layout.plus then ['+'] else []) ++
      Nat.toDigits 10 power.natAbs)

def magnitude (layout : Layout) (units : Nat) : List Char :=
  let d := Decimal.shortest layout.tie units
  let digits := Nat.toDigits 10 d.digits
  let power := d.exponent + digits.length - 1
  if layout.least ≤ power ∧ power ≤ layout.greatest then layout.positional digits d.exponent
  else layout.scientific digits power

def signed (negative : Bool) (text : List Char) : List Char :=
  if negative then '-' :: text else text

end Layout

end RecordSchema
