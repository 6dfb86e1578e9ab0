namespace RecordSchema

def unitBound : Nat := Nat.pow 2 2098

/-- Counts of units that a number can hold: in range, and carried by 53 bits. -/
def Representable (units : Nat) : Prop :=
  units < unitBound ∧ Nat.pow 2 (units.log2 - 52) ∣ units

instance (units : Nat) : Decidable (Representable units) :=
  inferInstanceAs (Decidable (units < unitBound ∧ Nat.pow 2 (units.log2 - 52) ∣ units))

theorem unitBound_pos : 0 < unitBound := by
  decide +kernel

theorem representable_zero : Representable 0 :=
  ⟨unitBound_pos, Nat.dvd_zero _⟩

/-- Numbers of binary64 precision. A finite magnitude is a whole number of units of `2 ^ -1074`, of
which at most 53 bits are significant. -/
inductive Number where
  | nan
  | infinite (negative : Bool)
  | finite (negative : Bool) (units : Nat) (fits : Representable units)
  deriving DecidableEq

namespace Number

def unitsPerOne : Nat := Nat.pow 2 1074

def zero (negative : Bool) : Number :=
  .finite negative 0 representable_zero

def roundDiv (num den : Nat) : Nat :=
  let low := num / den
  let rest := num % den
  if den < 2 * rest ∨ (2 * rest = den ∧ low % 2 = 1) then low + 1 else low

theorem roundDiv_mul (q den : Nat) (h : 0 < den) : roundDiv (q * den) den = q := by
  simp [roundDiv, Nat.mul_div_cancel _ h]
  omega

def lastPlace (num den : Nat) : Nat :=
  Nat.pow 2 ((num / den).log2 - 52)

def nearestUnits (num den : Nat) : Nat :=
  let place := lastPlace num den
  roundDiv num (den * place) * place

theorem nearestUnits_of_representable {units : Nat} (h : Representable units) (den : Nat)
    (positive : 0 < den) : nearestUnits (units * den) den = units := by
  obtain ⟨q, hq⟩ := h.2
  have place : lastPlace (units * den) den = Nat.pow 2 (units.log2 - 52) := by
    rw [lastPlace, Nat.mul_div_cancel _ positive]
  have shape : units * den = q * (den * Nat.pow 2 (units.log2 - 52)) := by
    rw [Nat.mul_comm den, ← Nat.mul_assoc, Nat.mul_comm q, ← hq]
  have widthPos : 0 < den * Nat.pow 2 (units.log2 - 52) :=
    Nat.mul_pos positive (Nat.two_pow_pos _)
  rw [nearestUnits, place, shape, roundDiv_mul _ _ widthPos, Nat.mul_comm, ← hq]

def ofUnits (negative : Bool) (units : Nat) : Number :=
  if fits : Representable units then .finite negative units fits else .infinite negative

def nearest (negative : Bool) (num den : Nat) : Number :=
  ofUnits negative (nearestUnits num den)

/-- The number nearest to `digits * 10 ^ exponent`. Exponents so large or so small that the result
is infinite or zero are settled before any power of ten is computed. -/
def ofDecimal (negative : Bool) (digits : Nat) (exponent : Int) : Number :=
  if digits = 0 then zero negative
  else match exponent with
    | .ofNat k =>
      if 400 ≤ k then .infinite negative
      else nearest negative (digits * Nat.pow 10 k * unitsPerOne) 1
    | .negSucc k =>
      if digits.log2 + 1077 ≤ 3 * (k + 1) then zero negative
      else nearest negative (digits * unitsPerOne) (Nat.pow 10 (k + 1))

def ofNat (n : Nat) : Number :=
  nearest false (n * unitsPerOne) 1

def ofInt (i : Int) : Number :=
  nearest (decide (i < 0)) (i.natAbs * unitsPerOne) 1

def neg : Number → Number
  | .nan => .nan
  | .infinite negative => .infinite !negative
  | .finite negative units fits => .finite (!negative) units fits

def mul : Number → Number → Number
  | .nan, _ => .nan
  | _, .nan => .nan
  | .infinite s, .infinite t => .infinite (s != t)
  | .infinite s, .finite t units _ => if units = 0 then .nan else .infinite (s != t)
  | .finite s units _, .infinite t => if units = 0 then .nan else .infinite (s != t)
  | .finite s m _, .finite t n _ => nearest (s != t) (m * n) unitsPerOne

def div : Number → Number → Number
  | .nan, _ => .nan
  | _, .nan => .nan
  | .infinite _, .infinite _ => .nan
  | .infinite s, .finite t _ _ => .infinite (s != t)
  | .finite s _ _, .infinite t => zero (s != t)
  | .finite s m _, .finite t n _ =>
    if n = 0 then
      if m = 0 then .nan else .infinite (s != t)
    else nearest (s != t) (m * unitsPerOne) n

def isNaN : Number → Bool
  | .nan => true
  | _ => false

def signed (negative : Bool) (units : Nat) : Int :=
  if negative then -units else units

/-- Numeric equality: NaN differs from everything, itself included, and the two zeros are equal. -/
def same : Number → Number → Bool
  | .infinite s, .infinite t => s == t
  | .finite s m _, .finite t n _ => signed s m == signed t n
  | _, _ => false

def less : Number → Number → Bool
  | .nan, _ => false
  | _, .nan => false
  | .infinite s, .infinite t => s && !t
  | .infinite s, .finite _ _ _ => s
  | .finite _ _ _, .infinite t => !t
  | .finite s m _, .finite t n _ => decide (signed s m < signed t n)

def toInt? : Number → Option Int
  | .finite negative units _ =>
    if units % unitsPerOne = 0 then some (signed negative (units / unitsPerOne)) else none
  | _ => none

def isInteger (n : Number) : Bool :=
  n.toInt?.isSome

end Number

end RecordSchema
