import RecordSchema.Json.Basic
import RecordSchema.Number.Numeral

namespace RecordSchema.JsonNumber

def wellFormed (n : Numeral) : Bool :=
  (match n.whole with
    | [] => false
    | '0' :: r => r.isEmpty
    | _ => true) &&
  (match n.fraction with
    | some [] => false
    | _ => true) &&
  n.hasExponentDigits

/-- From minus `2 ^ 63` to below `2 ^ 64`; minus zero is not an integer. -/
def fitsInteger (negative : Bool) (magnitude : Nat) : Bool :=
  if negative then decide (0 < magnitude ∧ magnitude ≤ Nat.pow 2 63)
  else decide (magnitude < Nat.pow 2 64)

def ofNumeral? (binary : Numeral → Option Number) (negative : Bool) (n : Numeral) :
    Option JsonNumber :=
  let magnitude := Numeral.natOfDigits n.whole
  if n.fraction.isNone && n.exponent.isNone && fitsInteger negative magnitude then
    some (.integer (if negative then -magnitude else magnitude))
  else
    (binary n).map fun x => .binary (if negative then x.neg else x)

def takeDigits (value : Nat) : List Char → Nat × Nat
  | [] => (value, 0)
  | c :: r =>
    let longer := Nat.ofDigitChars 10 [c] value
    if longer < Nat.pow 2 64 then takeDigits longer r else (value, r.length + 1)

def tenTo (power : Nat) : Number :=
  .ofDecimal false 1 power

def scale? (x : Number) (power : Int) : Option Number :=
  if power.natAbs ≤ 308 then
    if 0 ≤ power then
      match x.mul (tenTo power.natAbs) with
      | .finite negative units fits => some (.finite negative units fits)
      | _ => none
    else some (x.div (tenTo power.natAbs))
  else if x.same (.zero false) then some x
  else if 0 < power then none
  else scale? (x.div (tenTo 308)) (power + 308)
termination_by power.natAbs
decreasing_by omega

/-- The quick rule keeps a leading part of the digits that fits in 64 bits and brings in the power of
ten by binary64 arithmetic, so that it may round more than once. -/
def quick? (n : Numeral) : Option Number :=
  let (whole, dropped) := takeDigits 0 n.whole
  let (significand, ignored) := takeDigits whole n.fractionDigits
  let kept := n.fractionDigits.length - ignored
  scale? (.ofNat significand) (n.exponentValue + dropped - kept)

end RecordSchema.JsonNumber
