import Mathlib.Algebra.Group.Nat.Defs
import RecordSchema.Number.Decimal

namespace RecordSchema.Number

theorem roundDiv_mul_right (num den : Nat) {c : Nat} (positive : 0 < c) :
    roundDiv (num * c) (den * c) = roundDiv num den := by
  have low : num * c / (den * c) = num / den := Nat.mul_div_mul_right num den positive
  have rest : num * c % (den * c) = num % den * c := Nat.mul_mod_mul_right c num den
  have above : den * c < 2 * (num % den * c) ↔ den < 2 * (num % den) := by
    rw [← Nat.mul_assoc]
    exact Nat.mul_lt_mul_right positive
  have half : 2 * (num % den * c) = den * c ↔ 2 * (num % den) = den := by
    rw [← Nat.mul_assoc]
    exact Nat.mul_right_cancel_iff positive
  simp only [roundDiv, low, rest, above, half]

theorem nearestUnits_mul_right (num den : Nat) {c : Nat} (positive : 0 < c) :
    nearestUnits (num * c) (den * c) = nearestUnits num den := by
  have place : lastPlace (num * c) (den * c) = lastPlace num den := by
    rw [lastPlace, Nat.mul_div_mul_right num den positive, lastPlace]
  rw [nearestUnits, place, Nat.mul_right_comm, roundDiv_mul_right _ _ positive, nearestUnits]

theorem nearestUnits_congr {num den num' den' : Nat} (positive : 0 < den) (positive' : 0 < den')
    (same : num * den' = num' * den) : nearestUnits num den = nearestUnits num' den' :=
  calc nearestUnits num den
      = nearestUnits (num * den') (den * den') := (nearestUnits_mul_right num den positive').symm
    _ = nearestUnits (num' * den) (den' * den) := by rw [same, Nat.mul_comm den]
    _ = nearestUnits num' den' := nearestUnits_mul_right num' den' positive

theorem div_le_roundDiv (num den : Nat) : num / den ≤ roundDiv num den := by
  simp only [roundDiv]
  split <;> omega

/-- Rounding does not go below a power of two. -/
theorem pow_le_nearestUnits {a num den : Nat} (h : 2 ^ a ≤ num / den) :
    2 ^ a ≤ nearestUnits num den := by
  have nonzero : num / den ≠ 0 := by
    have := Nat.two_pow_pos a
    omega
  have width : a ≤ (num / den).log2 := (Nat.le_log2 nonzero).2 h
  have split : 2 ^ ((num / den).log2 - ((num / den).log2 - 52)) * lastPlace num den =
      2 ^ (num / den).log2 := by
    rw [lastPlace, Nat.pow_eq, ← Nat.pow_add]
    congr 1
    omega
  have positive : 0 < lastPlace num den := Nat.two_pow_pos _
  have floor : 2 ^ ((num / den).log2 - ((num / den).log2 - 52)) ≤
      num / (den * lastPlace num den) := by
    rw [← Nat.div_div_eq_div_mul, Nat.le_div_iff_mul_le positive, split]
    exact Nat.log2_self_le nonzero
  calc 2 ^ a ≤ 2 ^ (num / den).log2 := Nat.pow_le_pow_right (by decide) width
    _ = 2 ^ ((num / den).log2 - ((num / den).log2 - 52)) * lastPlace num den := split.symm
    _ ≤ nearestUnits num den := by
      apply Nat.mul_le_mul_right
      exact Nat.le_trans floor (div_le_roundDiv num (den * lastPlace num den))

theorem nearestUnits_of_small {num den : Nat} (h : 2 * num < den) : nearestUnits num den = 0 := by
  have low : num / den = 0 := Nat.div_eq_of_lt (by omega)
  have place : lastPlace num den = 1 := by rw [lastPlace, low]; rfl
  have rest : num % den = num := Nat.mod_eq_of_lt (by omega)
  rw [nearestUnits, place, Nat.mul_one, Nat.mul_one, roundDiv]
  simp only [low, rest]
  split <;> omega

theorem unitBound_le_pow {a : Nat} (h : 2098 ≤ a) : unitBound ≤ 2 ^ a := by
  unfold unitBound
  generalize 2098 = p at h ⊢
  exact Nat.pow_le_pow_right (by decide) h

theorem nearest_of_large (negative : Bool) {a num den : Nat} (large : 2098 ≤ a)
    (h : 2 ^ a ≤ num / den) : nearest negative num den = .infinite negative := by
  rw [nearest, ofUnits, dif_neg]
  intro fits
  have beyond := Nat.le_trans (unitBound_le_pow large) (pow_le_nearestUnits h)
  exact absurd fits.1 (Nat.not_lt.2 beyond)

theorem nearest_of_small (negative : Bool) {num den : Nat} (h : 2 * num < den) :
    nearest negative num den = zero negative := by
  rw [nearest, nearestUnits_of_small h]
  exact dif_pos representable_zero

theorem pow_le_ten_pow (k : Nat) : 2 ^ (3 * k) ≤ 10 ^ k := by
  rw [Nat.pow_mul]
  exact Nat.pow_le_pow_left (by decide) k

theorem pow_le_mul_pow {digits : Nat} (nonzero : digits ≠ 0) (k p : Nat) :
    2 ^ (3 * k + p) ≤ digits * 10 ^ k * 2 ^ p := by
  rw [Nat.pow_add]
  apply Nat.mul_le_mul_right
  apply Nat.le_trans (pow_le_ten_pow k)
  exact Nat.le_mul_of_pos_left _ (Nat.pos_of_ne_zero nonzero)

theorem mul_pow_lt {digits k p : Nat} (small : digits.log2 + p + 3 ≤ 3 * k) :
    2 * (digits * 2 ^ p) < 10 ^ k := by
  have wide : digits < 2 ^ (digits.log2 + 1) := Nat.lt_log2_self
  calc 2 * (digits * 2 ^ p) = digits * 2 ^ (p + 1) := by
        rw [Nat.pow_succ, Nat.mul_comm 2, Nat.mul_assoc]
    _ < 2 ^ (digits.log2 + 1) * 2 ^ (p + 1) := (Nat.mul_lt_mul_right (Nat.two_pow_pos _)).2 wide
    _ = 2 ^ (digits.log2 + 1 + (p + 1)) := (Nat.pow_add 2 _ _).symm
    _ ≤ 2 ^ (3 * k) := Nat.pow_le_pow_right (by decide) (by omega)
    _ ≤ 10 ^ k := pow_le_ten_pow k

theorem unitsPerOne_eq : ∃ p, p = 1074 ∧ unitsPerOne = 2 ^ p := by
  unfold unitsPerOne
  generalize 1074 = p
  exact ⟨p, rfl, Nat.pow_eq⟩

/-- The number nearest to a decimal is the one nearest to the quotient that it stands for. -/
theorem ofDecimal_eq_nearest (negative : Bool) (digits : Nat) (exponent : Int) :
    ofDecimal negative digits exponent =
      nearest negative (digits * 10 ^ exponent.toNat * unitsPerOne) (10 ^ (-exponent).toNat) := by
  unfold ofDecimal
  by_cases empty : digits = 0
  · rw [if_pos empty, empty, Nat.zero_mul, Nat.zero_mul]
    exact (nearest_of_small negative (Nat.pow_pos (by decide))).symm
  · rw [if_neg empty]
    obtain ⟨p, places, one⟩ := unitsPerOne_eq
    rw [one]
    cases exponent with
    | ofNat k =>
        simp only [Int.ofNat_eq_natCast, Int.toNat_natCast, Int.toNat_neg_natCast, Nat.pow_zero,
          Nat.pow_eq]
        -- A digit with 400 zeros is beyond `2 ^ 1024`, the first value out of range.
        by_cases large : 400 ≤ k
        · rw [if_pos large]
          symm
          apply nearest_of_large negative (a := 3 * k + p) (by omega)
          rw [Nat.div_one]
          exact pow_le_mul_pow empty k p
        · rw [if_neg large]
    | negSucc k =>
        simp only [Int.toNat_negSucc, Int.neg_negSucc, Int.toNat_natCast, Nat.pow_zero, Nat.mul_one,
          Nat.pow_eq]
        by_cases small : digits.log2 + 1077 ≤ 3 * (k + 1)
        · rw [if_pos small]
          exact (nearest_of_small negative (mul_pow_lt (by omega))).symm
        · rw [if_neg small]

/-- Zeros at the end of the digits count as much as a larger exponent. -/
theorem ofDecimal_mul_pow (negative : Bool) (digits k : Nat) (exponent : Int) :
    ofDecimal negative (digits * 10 ^ k) exponent = ofDecimal negative digits (exponent + k) := by
  have powers : 10 ^ k * 10 ^ exponent.toNat * 10 ^ (-(exponent + k)).toNat =
      10 ^ (exponent + k).toNat * 10 ^ (-exponent).toNat := by
    rw [← Nat.pow_add, ← Nat.pow_add, ← Nat.pow_add]
    congr 1
    omega
  rw [ofDecimal_eq_nearest, ofDecimal_eq_nearest, nearest, nearest]
  apply congrArg
  apply nearestUnits_congr (Nat.pow_pos (by decide)) (Nat.pow_pos (by decide))
  generalize unitsPerOne = one
  calc digits * 10 ^ k * 10 ^ exponent.toNat * one * 10 ^ (-(exponent + k)).toNat
      = digits * one * (10 ^ k * 10 ^ exponent.toNat * 10 ^ (-(exponent + k)).toNat) := by ac_rfl
    _ = digits * 10 ^ (exponent + k).toNat * one * 10 ^ (-exponent).toNat := by
        rw [powers]
        ac_rfl

end RecordSchema.Number
