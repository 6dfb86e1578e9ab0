import RecordSchema.Proofs.JsonForm
import RecordSchema.Proofs.Rounding

namespace RecordSchema.Decimal

theorem toNumber_trim (negative : Bool) (d : Decimal) :
    d.trim.toNumber negative = d.toNumber negative := by
  fun_induction trim d with
  | case1 d zeros ih =>
      have split : d.digits / 10 * 10 ^ 1 = d.digits := by omega
      have shorter := Number.ofDecimal_mul_pow negative (d.digits / 10) 1 d.exponent
      rw [split] at shorter
      rw [ih]
      exact shorter.symm
  | case2 => rfl

/-- A decimal that reads back does so with either sign. -/
theorem toNumber_of_readsBack {units : Nat} {d : Decimal} (fits : Representable units)
    (h : readsBack units d = true) (negative : Bool) :
    d.toNumber negative = .finite negative units fits := by
  -- The sign plays no part in rounding, so both readings have the same units.
  have value (sign : Bool) : ∃ read, d.toNumber sign = Number.ofUnits sign read ∧
      d.toNumber false = Number.ofUnits false read :=
    ⟨_, Number.ofDecimal_eq_nearest sign d.digits d.exponent,
      Number.ofDecimal_eq_nearest false d.digits d.exponent⟩
  obtain ⟨read, signed, unsigned⟩ := value negative
  rw [readsBack, unsigned] at h
  by_cases small : Representable read
  · rw [Number.ofUnits_of_representable false small] at h
    obtain rfl := eq_of_beq h
    rw [signed, Number.ofUnits_of_representable negative small]
  · rw [Number.ofUnits, dif_neg small] at h
    cases h

theorem readsBack_of_toNumber {units : Nat} {d : Decimal} (fits : Representable units)
    (h : d.toNumber false = .finite false units fits) : readsBack units d = true := by
  rw [readsBack, h]
  exact beq_self_eq_true units

theorem readsBack_trim (units : Nat) (d : Decimal) :
    readsBack units d.trim = readsBack units d := by
  rw [readsBack, toNumber_trim, readsBack]

theorem nearer_cases (tie : Tie) (low rest den : Nat) :
    nearer tie low rest den = low ∨ nearer tie low rest den = low + 1 := by
  unfold nearer
  split
  · exact .inl rfl
  · split
    · exact .inr rfl
    · cases tie with
      | toEven =>
          dsimp only
          omega
      | up => exact .inr rfl

theorem readsBack_of_onGrid? {tie : Tie} {units : Nat} {exponent : Int} {d : Decimal}
    (h : onGrid? tie units exponent = some d) : readsBack units d = true := by
  simp only [onGrid?] at h
  split at h
  · next low high =>
      cases h
      rcases nearer_cases tie _ _ _ with same | same <;> rw [same] <;> assumption
  · next low _ =>
      cases h
      exact low
  · next _ high =>
      cases h
      exact high
  · cases h

theorem toNumber_of_fives {units p : Nat} {exponent : Int} (fits : Representable units)
    (one : Number.unitsPerOne = 2 ^ p) (places : exponent = -(p : Int)) :
    toNumber false ⟨units * Nat.pow 5 p, exponent⟩ = .finite false units fits := by
  have tens : units * 5 ^ p * 2 ^ p = units * 10 ^ p := by
    rw [Nat.mul_assoc, ← Nat.mul_pow]
  have fraction : (-exponent).toNat = p := by omega
  have whole : exponent.toNat = 0 := by omega
  rw [toNumber, Number.ofDecimal_eq_nearest, one, fraction, whole, Nat.pow_zero, Nat.mul_one,
    Nat.pow_eq, tens, Number.nearest,
    Number.nearestUnits_of_representable fits _ (Nat.pow_pos (by decide)),
    Number.ofUnits_of_representable false fits]

theorem readsBack_exact {units : Nat} (fits : Representable units) :
    readsBack units (exact units) = true := by
  obtain ⟨p, places, one⟩ := Number.unitsPerOne_eq
  rw [exact, ← places]
  exact readsBack_of_toNumber fits (toNumber_of_fives fits one (by omega))

/-- The shortest decimal of a number reads back as the number. -/
theorem toNumber_shortest (tie : Tie) {units : Nat} (fits : Representable units)
    (negative : Bool) : (shortest tie units).toNumber negative = .finite negative units fits := by
  apply toNumber_of_readsBack fits
  rw [shortest, readsBack_trim]
  cases found : (List.range 17).findSome? fun n =>
      onGrid? tie units (above units - (n + 1 : Nat)) with
  | none => exact readsBack_exact fits
  | some d =>
      obtain ⟨n, -, onGrid⟩ := List.exists_of_findSome?_eq_some found
      exact readsBack_of_onGrid? onGrid

end RecordSchema.Decimal
