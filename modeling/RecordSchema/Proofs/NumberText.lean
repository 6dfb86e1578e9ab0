import RecordSchema.Proofs.Shortest
import RecordSchema.Proofs.Spelling

namespace RecordSchema

namespace Numeral

theorem digits_toDigits (n : Nat) : Digits (Nat.toDigits 10 n) :=
  fun _ mem => Nat.isDigit_of_mem_toDigits (by decide) (by decide) mem

theorem digits_zeros (k : Nat) : Digits (List.replicate k '0') := by
  intro c mem
  rw [List.eq_of_mem_replicate mem]
  rfl

theorem Digits.append {s t : List Char} (hs : Digits s) (ht : Digits t) : Digits (s ++ t) :=
  List.forall_mem_append.2 ⟨hs, ht⟩

theorem Digits.take {digits : List Char} (h : Digits digits) (k : Nat) :
    Digits (digits.take k) :=
  fun c mem => h c (List.mem_of_mem_take mem)

theorem Digits.drop {digits : List Char} (h : Digits digits) (k : Nat) :
    Digits (digits.drop k) :=
  fun c mem => h c (List.mem_of_mem_drop mem)

theorem natOfDigits_toDigits (n : Nat) : natOfDigits (Nat.toDigits 10 n) = n :=
  Nat.ofDigitChars_ten_toDigits

theorem natOfDigits_append_zeros (digits : List Char) (k : Nat) :
    natOfDigits (digits ++ List.replicate k '0') = natOfDigits digits * 10 ^ k := by
  rw [natOfDigits, Nat.ofDigitChars_append, Nat.ofDigitChars_replicate_zero, Nat.mul_comm,
    natOfDigits]

theorem natOfDigits_zeros_append (k : Nat) (digits : List Char) :
    natOfDigits (List.replicate k '0' ++ digits) = natOfDigits digits := by
  rw [natOfDigits, Nat.ofDigitChars_append, Nat.ofDigitChars_replicate_zero, Nat.mul_zero,
    natOfDigits]

end Numeral

namespace Decimal

def SpelledBy (d : Decimal) (text : List Char) : Prop :=
  ∃ n : Numeral, n.Spelled text ∧ ∀ negative, n.toNumber negative = d.toNumber negative

theorem spelledBy_of_parts {d : Decimal} {n : Numeral} {text : List Char} (h : n.Spelled text)
    (zeros : Nat)
    (value : Numeral.natOfDigits (n.whole ++ n.fractionDigits) = d.digits * 10 ^ zeros)
    (places : n.exponentValue - n.fractionDigits.length + zeros = d.exponent) :
    d.SpelledBy text := by
  refine ⟨n, h, fun negative => ?_⟩
  rw [Numeral.toNumber, value, Number.ofDecimal_mul_pow, places, toNumber]

end Decimal

namespace Layout

open Numeral

variable (layout : Layout) {digits : List Char}

theorem spelledBy_integer (h : Digits digits) (nonempty : digits ≠ []) {exponent : Int}
    (whole : 0 ≤ exponent) :
    Decimal.SpelledBy ⟨natOfDigits digits, exponent⟩ (digits ++ List.replicate exponent.toNat '0' ++
      (if layout.pointZero then ['.', '0'] else [])) := by
  have longer : Digits (digits ++ List.replicate exponent.toNat '0') := h.append (digits_zeros _)
  by_cases pointZero : layout.pointZero = true
  · have spelled := Spelled.intro longer (.point (digits_zeros 1)) .absent (by simp [nonempty])
    rw [if_pos pointZero]
    apply Decimal.spelledBy_of_parts spelled (exponent.toNat + 1)
    · rw [fractionDigits, Option.getD_some, List.append_assoc, ← List.replicate_add,
        natOfDigits_append_zeros]
    · simp only [exponentValue, fractionDigits, Option.getD_some, List.length_replicate]
      omega
  · have spelled := Spelled.intro longer .absent .absent (by simp [nonempty])
    rw [if_neg pointZero]
    apply Decimal.spelledBy_of_parts spelled exponent.toNat
    · rw [fractionDigits, Option.getD_none, List.append_nil, natOfDigits_append_zeros]
    · simp only [exponentValue, fractionDigits, Option.getD_none, List.length_nil]
      omega

theorem spelledBy_point (h : Digits digits) (nonempty : digits ≠ []) (places : Nat)
    (fewer : places ≤ digits.length) :
    Decimal.SpelledBy ⟨natOfDigits digits, -(places : Int)⟩
      (digits.take (digits.length - places) ++ '.' :: digits.drop (digits.length - places)) := by
  have spelled := Spelled.intro (h.take (digits.length - places))
    (.point (h.drop (digits.length - places))) .absent (by simpa using nonempty)
  rw [List.append_nil] at spelled
  apply Decimal.spelledBy_of_parts spelled 0
  · rw [fractionDigits, Option.getD_some, List.take_append_drop, Nat.pow_zero, Nat.mul_one]
  · simp only [exponentValue, fractionDigits, Option.getD_some, List.length_drop]
    omega

theorem spelledBy_fraction (h : Digits digits) (k : Nat) :
    Decimal.SpelledBy ⟨natOfDigits digits, -(k + digits.length : Int)⟩
      ('0' :: '.' :: (List.replicate k '0' ++ digits)) := by
  have spelled := Spelled.intro (digits_zeros 1) (.point ((digits_zeros k).append h)) .absent
    (by simp)
  rw [List.append_nil] at spelled
  apply Decimal.spelledBy_of_parts spelled 0
  · rw [fractionDigits, Option.getD_some, natOfDigits_zeros_append, natOfDigits_zeros_append,
      Nat.pow_zero, Nat.mul_one]
  · simp only [exponentValue, fractionDigits, Option.getD_some, List.length_append,
      List.length_replicate]
    omega

theorem spelledBy_positional (h : Digits digits) (nonempty : digits ≠ []) (exponent : Int) :
    Decimal.SpelledBy ⟨natOfDigits digits, exponent⟩ (layout.positional digits exponent) := by
  by_cases whole : 0 ≤ exponent
  · rw [positional, if_pos whole]
    exact layout.spelledBy_integer h nonempty whole
  · by_cases inside : 0 < exponent + digits.length
    · have text := spelledBy_point h nonempty (-exponent).toNat (by omega)
      have taken : digits.length - (-exponent).toNat = (exponent + digits.length).toNat := by omega
      have value : -((-exponent).toNat : Int) = exponent := by omega
      rw [taken, value] at text
      rw [positional, if_neg whole, if_pos inside]
      exact text
    · have text := spelledBy_fraction h (-(exponent + digits.length)).toNat
      have value : -((-(exponent + digits.length)).toNat + digits.length : Int) = exponent := by
        omega
      rw [value] at text
      rw [positional, if_neg whole, if_neg inside]
      exact text

theorem sign_of_power (power : Int) :
    Sign (decide (power < 0)) (if power < 0 then ['-'] else if layout.plus then ['+'] else []) := by
  by_cases negative : power < 0
  · rw [if_pos negative, decide_eq_true negative]
    exact .minus
  · rw [if_neg negative, decide_eq_false negative]
    split
    · exact .plus
    · exact .absent

theorem exponentValue_of_power (power : Int) (whole : List Char) (fraction : Option (List Char)) :
    exponentValue ⟨whole, fraction, some (decide (power < 0), Nat.toDigits 10 power.natAbs)⟩ =
      power := by
  by_cases negative : power < 0
  · simp only [exponentValue, decide_eq_true negative, natOfDigits_toDigits]
    omega
  · simp only [exponentValue, decide_eq_false negative, natOfDigits_toDigits]
    omega

theorem spelledBy_scientific (h : Digits digits) (nonempty : digits ≠ []) (exponent : Int)
    {power : Int} (first : power = exponent + digits.length - 1) :
    Decimal.SpelledBy ⟨natOfDigits digits, exponent⟩ (layout.scientific digits power) := by
  have announced := Exponent.power (.inl rfl) (layout.sign_of_power power)
    (digits_toDigits power.natAbs) Nat.toDigits_ne_nil
  have positive : 0 < digits.length := List.length_pos_iff.2 nonempty
  rw [scientific, List.append_assoc]
  by_cases single : digits.length ≤ 1
  · have spelled := Spelled.intro (h.take 1) .absent announced (by simp [nonempty])
    rw [if_pos single]
    apply Decimal.spelledBy_of_parts spelled 0
    · rw [fractionDigits, Option.getD_none, List.append_nil, List.take_of_length_le single,
        Nat.pow_zero, Nat.mul_one]
    · rw [exponentValue_of_power, fractionDigits, Option.getD_none, List.length_nil]
      dsimp only
      omega
  · have spelled := Spelled.intro (h.take 1) (.point (h.drop 1)) announced (by simp [nonempty])
    rw [if_neg single]
    apply Decimal.spelledBy_of_parts spelled 0
    · rw [fractionDigits, Option.getD_some, List.take_append_drop, Nat.pow_zero, Nat.mul_one]
    · rw [exponentValue_of_power, fractionDigits, Option.getD_some, List.length_drop]
      dsimp only
      omega

theorem magnitude_cases (units : Nat) : ∃ d, d = Decimal.shortest layout.tie units ∧
    (layout.magnitude units = layout.positional (Nat.toDigits 10 d.digits) d.exponent ∨
      layout.magnitude units = layout.scientific (Nat.toDigits 10 d.digits)
        (d.exponent + (Nat.toDigits 10 d.digits).length - 1)) :=
  ⟨_, rfl, ite_eq_or_eq _ _ _⟩

theorem spelledBy_magnitude (units : Nat) :
    (Decimal.shortest layout.tie units).SpelledBy (layout.magnitude units) := by
  -- The decimal gets a name of its own, or comparing terms would compute it.
  obtain ⟨d, shortest, notations⟩ := layout.magnitude_cases units
  have digits := digits_toDigits d.digits
  have positional := layout.spelledBy_positional digits Nat.toDigits_ne_nil d.exponent
  have scientific := layout.spelledBy_scientific digits Nat.toDigits_ne_nil d.exponent rfl
  rw [natOfDigits_toDigits] at positional scientific
  rw [← shortest]
  rcases notations with text | text
  · rw [text]
    exact positional
  · rw [text]
    exact scientific

end Layout

namespace Number

theorem isBlank_eq_false {c : Char} (h : Numeral.isPart c = true) : Text.isBlank c = false := by
  simp only [Numeral.isPart, Bool.or_eq_true, beq_iff_eq] at h
  obtain ((((digit | rfl) | rfl) | rfl) | rfl) | rfl := h
  · obtain ⟨low, high⟩ := Char.isDigit_iff_toNat.1 digit
    have zero : '0'.toNat = 48 := rfl
    have nine : '9'.toNat = 57 := rfl
    simp only [Text.isBlank, Bool.or_eq_false_iff, Bool.and_eq_false_iff, decide_eq_false_iff_not,
      beq_eq_false_iff_ne]
    omega
  all_goals rfl

theorem trim_of_isPart {text : List Char} (h : ∀ c ∈ text, Numeral.isPart c = true) :
    Text.trim text = text := by
  have nonblank (c : Char) (mem : c ∈ text) : Text.isBlank c = false := isBlank_eq_false (h c mem)
  have trimmed : Text.Trimmed ([] ++ text ++ []) text := by
    refine .intro (by simp) (by simp) (fun c first => ?_) (fun c last => ?_)
    · exact nonblank c (List.mem_of_mem_head? first)
    · exact nonblank c (List.mem_of_getLast? last)
  rw [List.nil_append, List.append_nil] at trimmed
  exact trimmed.trim_eq

theorem sign_of_signed (negative : Bool) (text : List Char) :
    ∃ sign, Numeral.Sign negative sign ∧ Layout.signed negative text = sign ++ text := by
  cases negative with
  | false => exact ⟨_, .absent, rfl⟩
  | true => exact ⟨_, .minus, rfl⟩

/-- The text that a layout gives a number is read back as the number. -/
theorem ofText_signed_magnitude (layout : Layout) (negative : Bool) {units : Nat}
    (fits : Representable units) :
    ofText (String.ofList (Layout.signed negative (layout.magnitude units))) =
      .finite negative units fits := by
  obtain ⟨n, spelled, value⟩ := layout.spelledBy_magnitude units
  obtain ⟨sign, signed, text⟩ := sign_of_signed negative (layout.magnitude units)
  have parts := List.forall_mem_append.2 ⟨signed.isPart, spelled.isPart⟩
  rw [text, ofText, String.toList_ofList, trim_of_isPart parts, ofTrimmed_of_decimal signed spelled,
    value, Decimal.toNumber_shortest layout.tie fits]

theorem ofText_zero : ofText "0" = .zero false := by
  rfl

/-- The second number is the first, up to the sign of zero, which may be lost. -/
def ReadAs (n m : Number) : Prop :=
  m = n ∨ (n = .zero true ∧ m = .zero false)

theorem readAs_ofText_toText (n : Number) : n.ReadAs (.ofText n.toText) := by
  cases n with
  | nan => exact .inl rfl
  | infinite negative => cases negative <;> exact .inl rfl
  | finite negative units fits =>
      by_cases zero : units = 0
      · subst zero
        cases negative with
        | false => exact .inl ofText_zero
        | true => exact .inr ⟨rfl, ofText_zero⟩
      · rw [toText, if_neg zero]
        exact .inl (ofText_signed_magnitude textLayout negative fits)

end Number

namespace Value

/-- The value holds the number and nothing else, inside sequences of one item and instances. -/
inductive Wraps (n : Number) : Value → Prop
  | number : Wraps n (.number n)
  | item {v : Value} (h : Wraps n v) : Wraps n (.sequence [v])
  | custom (typeName : String) {v : Value} (h : Wraps n v) : Wraps n (.custom typeName v)

theorem Wraps.not_nullish {n : Number} {v : Value} (h : v.Wraps n) : v.isNullish = false := by
  cases h <;> rfl

theorem Wraps.toText_eq {n : Number} {v : Value} (h : v.Wraps n) : v.toText = n.toText := by
  induction h with
  | number => rw [toText]
  | item h ih =>
      rw [toText, itemTexts, itemTexts, h.not_nullish, if_neg Bool.false_ne_true,
        String.intercalate_singleton, ih]
  | custom typeName h ih => rw [toText, ih]

theorem Wraps.toNumber_readAs {n : Number} {v : Value} (h : v.Wraps n) : n.ReadAs v.toNumber := by
  induction h with
  | number => exact .inl rfl
  | item h =>
      rw [toNumber, h.item.toText_eq]
      exact n.readAs_ofText_toText
  | custom typeName h ih => rwa [toNumber]

/-- A number that is wrapped up is read back from the value and from the value's text. -/
theorem number_survives_text {n : Number} {v : Value} (h : v.Wraps n) :
    n.ReadAs v.toNumber ∧ n.ReadAs (Value.string v.toText).toNumber := by
  refine ⟨h.toNumber_readAs, ?_⟩
  rw [toNumber, h.toText_eq]
  exact n.readAs_ofText_toText

theorem wrapped_negative_zero_survives :
    (sequence [custom "Int" (number (.zero true))]).Wraps (.zero true) ∧
      (Number.zero true).ReadAs (sequence [custom "Int" (number (.zero true))]).toNumber ∧
      (Value.string (sequence [custom "Int" (number (.zero true))]).toText).toNumber =
        .zero false := by
  have wraps : (sequence [custom "Int" (number (.zero true))]).Wraps (.zero true) :=
    .item (.custom "Int" .number)
  exact ⟨wraps, (number_survives_text wraps).1, rfl⟩

end Value

end RecordSchema
