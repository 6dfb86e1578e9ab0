import RecordSchema.Proofs.Membership
import RecordSchema.Proofs.NumberText

namespace RecordSchema

namespace Numeral

/-- What naturals are printed as: zero, or digits of which the first is not zero. -/
inductive Canonical : List Char → Prop
  | zero : Canonical ['0']
  | positive {first : Char} {rest : List Char} (digit : first.isDigit = true)
      (nonzero : first ≠ '0') (digits : Digits rest) : Canonical (first :: rest)

theorem Canonical.digits {text : List Char} (h : Canonical text) : Digits text := by
  cases h with
  | zero => exact List.forall_mem_singleton.2 rfl
  | positive digit _ digits => exact List.forall_mem_cons.2 ⟨digit, digits⟩

theorem isDigit_digitChar_of_lt {n : Nat} (small : n < 10) : n.digitChar.isDigit = true := by
  rw [Nat.isDigit_digitChar, decide_eq_true small]

theorem canonical_digitChar {n : Nat} (small : n < 10) : Canonical [n.digitChar] := by
  by_cases zero : n = 0
  · subst zero
    exact .zero
  · apply Canonical.positive (isDigit_digitChar_of_lt small)
    · exact mt Nat.digitChar_eq_zero.1 zero
    · simp [Digits]

theorem Canonical.append_digit {text : List Char} (h : Canonical text)
    (positive : 0 < natOfDigits text) {c : Char} (digit : c.isDigit = true) :
    Canonical (text ++ [c]) := by
  cases h with
  | zero => cases positive
  | positive first nonzero digits =>
      exact .positive first nonzero (digits.append (List.forall_mem_singleton.2 digit))

theorem canonical_toDigits (n : Nat) : Canonical (Nat.toDigits 10 n) := by
  induction n using Nat.strong_induction_on with
  | _ n ih =>
      by_cases small : n < 10
      · rw [Nat.toDigits_of_lt_base small]
        exact canonical_digitChar small
      · rw [Nat.toDigits_of_base_le (by decide) (by omega)]
        have last := isDigit_digitChar_of_lt (Nat.mod_lt n (by decide : 0 < 10))
        -- The digits in front of the last one are those of a positive number.
        apply (ih (n / 10) (by omega)).append_digit _ last
        rw [natOfDigits_toDigits]
        omega

theorem digitChar_of_isDigit {c : Char} (digit : c.isDigit = true) :
    c.toNat - '0'.toNat < 10 ∧ (c.toNat - '0'.toNat).digitChar = c := by
  obtain ⟨low, high⟩ := Char.isDigit_iff_toNat.1 digit
  have zero : '0'.toNat = 48 := rfl
  have nine : '9'.toNat = 57 := rfl
  have small : c.toNat - '0'.toNat < 10 := by omega
  refine ⟨small, Char.toNat_inj.1 ?_⟩
  rw [Nat.toNat_digitChar_of_lt_ten small]
  omega

/-- Digits that follow a positive number continue its print. -/
theorem toDigits_append_digits {start : Nat} (positive : 0 < start) {text : List Char}
    (h : Digits text) :
    Nat.toDigits 10 start ++ text = Nat.toDigits 10 (Nat.ofDigitChars 10 text start) := by
  induction text generalizing start with
  | nil => rw [List.append_nil, Nat.ofDigitChars_nil]
  | cons c r ih =>
      obtain ⟨digit, digits⟩ := List.forall_mem_cons.1 h
      obtain ⟨small, printed⟩ := digitChar_of_isDigit digit
      have longer := Nat.toDigits_append_toDigits (by decide : 1 < 10) positive small
      rw [Nat.toDigits_of_lt_base small, printed] at longer
      calc Nat.toDigits 10 start ++ c :: r
        _ = (Nat.toDigits 10 start ++ [c]) ++ r := by rw [List.append_assoc, List.singleton_append]
        _ = Nat.toDigits 10 (10 * start + (c.toNat - '0'.toNat)) ++ r := by rw [longer]
        _ = Nat.toDigits 10 (Nat.ofDigitChars 10 (c :: r) start) := by
          rw [ih (by omega) digits, Nat.ofDigitChars_cons]

theorem toDigits_natOfDigits {text : List Char} (h : Canonical text) :
    Nat.toDigits 10 (natOfDigits text) = text := by
  cases h with
  | zero => rfl
  | @positive first rest digit nonzero digits =>
      obtain ⟨small, printed⟩ := digitChar_of_isDigit digit
      have positive : 0 < first.toNat - '0'.toNat := by
        apply Nat.pos_of_ne_zero
        intro zero
        rw [zero] at printed
        exact nonzero printed.symm
      have continued := toDigits_append_digits positive digits
      rw [Nat.toDigits_of_lt_base small, printed] at continued
      rw [natOfDigits, Nat.ofDigitChars_cons, Nat.mul_zero, Nat.zero_add, ← continued]
      rfl

/-- Reads the digits after an optional plus sign as a number below the bound, however many zeros
stand in front. -/
def natBelow? (bound : Nat) (text : List Char) : Option Nat :=
  let digits := if text.head? = some '+' then text.tail else text
  if digits.all Char.isDigit ∧ digits ≠ [] ∧ natOfDigits digits < bound then
    some (natOfDigits digits)
  else none

theorem natBelow?_toDigits {bound n : Nat} (fits : n < bound) :
    natBelow? bound (Nat.toDigits 10 n) = some n := by
  have digits := digits_toDigits n
  have unsigned : (Nat.toDigits 10 n).head? ≠ some '+' := by
    intro sign
    have digit : '+'.isDigit = true := digits '+' (List.mem_of_head? sign)
    cases digit
  have all : (Nat.toDigits 10 n).all Char.isDigit = true := List.all_eq_true.2 digits
  simp only [natBelow?, if_neg unsigned, natOfDigits_toDigits]
  exact if_pos ⟨all, Nat.toDigits_ne_nil, fits⟩

end Numeral

namespace Value

open Numeral

theorem position?_eq_some_iff (key : String) (n : Nat) :
    position? key = some n ↔ Canonical key.toList ∧ natOfDigits key.toList = n := by
  constructor
  · intro named
    rw [← repr_eq_of_position? named, Nat.repr_eq_ofList_toDigits, String.toList_ofList]
    exact ⟨canonical_toDigits n, natOfDigits_toDigits n⟩
  · rintro ⟨canonical, rfl⟩
    have printed : (natOfDigits key.toList).repr = key := by
      rw [Nat.repr_eq_ofList_toDigits, toDigits_natOfDigits canonical, String.ofList_toList]
    rw [← printed, position?_repr, printed]

theorem get?_sequence_eq_some_iff (items : List Value) (key : String) (v : Value) :
    (sequence items).get? key = some v ↔
      Canonical key.toList ∧ items[natOfDigits key.toList]? = some v := by
  rw [get?, Option.bind_eq_some_iff]
  simp only [position?_eq_some_iff, and_assoc, exists_and_left, exists_eq_left']

/-- A looser reading of numerals finds the same items, if it gives up no position of the sequence
and only what is printed as the key is kept. -/
theorem get?_sequence_eq_reprinted {items : List Value} {bound : Nat}
    (fits : items.length ≤ bound) (key : String) :
    (sequence items).get? key =
      ((natBelow? bound key.toList).filter fun n => n.repr = key).bind fun n => items[n]? := by
  ext v
  rw [get?, Option.bind_eq_some_iff, Option.bind_eq_some_iff]
  refine exists_congr fun n => and_congr_left fun found => ?_
  -- A position that holds an item is below the bound, so its print can be read.
  obtain ⟨inside, -⟩ := List.getElem?_eq_some_iff.1 found
  rw [Option.filter_eq_some_iff, decide_eq_true_iff]
  constructor
  · intro named
    obtain rfl := repr_eq_of_position? named
    rw [Nat.repr_eq_ofList_toDigits, String.toList_ofList]
    exact ⟨natBelow?_toDigits (by omega), rfl⟩
  · rintro ⟨-, rfl⟩
    exact position?_repr n

inductive Stray (size : Nat) : List Char → Prop
  | sign {text : List Char} {c : Char} (mem : c ∈ text) (h : c = '+' ∨ c = '-') : Stray size text
  | blank {text : List Char} {c : Char} (mem : c ∈ text) (h : Text.isBlank c = true) :
      Stray size text
  | zeroInFront {rest : List Char} (more : rest ≠ []) : Stray size ('0' :: rest)
  | outOfRange {text : List Char} (h : size ≤ natOfDigits text) : Stray size text

theorem Stray.not_position {size : Nat} {text : List Char} (h : Stray size text)
    (canonical : Canonical text) : size ≤ natOfDigits text := by
  cases h with
  | sign mem h =>
      have digit := canonical.digits _ mem
      rcases h with rfl | rfl <;> cases digit
  | blank mem h =>
      have nonblank := Number.isBlank_eq_false (isPart_of_isDigit (canonical.digits _ mem))
      rw [nonblank] at h
      cases h
  | zeroInFront more =>
      cases canonical with
      | zero => exact absurd rfl more
      | positive _ nonzero => exact absurd rfl nonzero
  | outOfRange h => exact h

theorem get?_of_stray {items : List Value} {key : String} (h : Stray items.length key.toList) :
    (sequence items).get? key = none := by
  cases found : (sequence items).get? key with
  | none => rfl
  | some v =>
      obtain ⟨canonical, there⟩ := (get?_sequence_eq_some_iff items key v).1 found
      have outside := h.not_position canonical
      rw [List.getElem?_eq_none outside] at there
      cases there

/-- A key finds just what is listed under it, and no key is listed twice. Among the items of a
sequence a canonical numeral finds the one at its position; texts with a sign, a blank or a zero in
front and numerals out of range find nothing, and it makes no difference to read numerals more
loosely and to print them again. -/
theorem lookup_agrees_with_entries {v : Value} (distinct : v.WellFormed) :
    (∀ key x, v.get? key = some x ↔ (key, x) ∈ v.entries) ∧
    (Members.names v.entries).Nodup ∧
    ∀ items, v = .sequence items → ∀ key,
      (∀ x, v.get? key = some x ↔
        Canonical key.toList ∧ items[natOfDigits key.toList]? = some x) ∧
      (Stray items.length key.toList → v.get? key = none) ∧
      ∀ bound, items.length ≤ bound → v.get? key =
        ((natBelow? bound key.toList).filter fun n => n.repr = key).bind fun n => items[n]? := by
  refine ⟨get?_eq_some_iff distinct, distinct.nodup_names, ?_⟩
  rintro items rfl key
  exact ⟨get?_sequence_eq_some_iff items key, get?_of_stray,
    fun bound fits => get?_sequence_eq_reprinted fits key⟩

def players : Value :=
  .sequence (["Ada", "Ben", "Cleo", "Dan", "Eve", "Finn", "Gus", "Hal", "Ida", "Jo", "Kit"].map
    .string)

theorem lookup_of_players :
    players.WellFormed ∧ players.get? "10" = some (.string "Kit") ∧
    ("7", .string "Hal") ∈ players.entries ∧
    ∀ key ∈ ["+10", "010", " 10", "11"], players.get? key = none := by
  have distinct : players.WellFormed := by
    simp [players, WellFormed, WellFormedItems]
  obtain ⟨listed, -, items⟩ := lookup_agrees_with_entries distinct
  have last : players.get? "10" = some (.string "Kit") := by
    refine ((items _ rfl "10").1 _).2 ⟨?_, rfl⟩
    exact .positive rfl (by decide) (List.forall_mem_singleton.2 rfl)
  refine ⟨distinct, last, (listed "7" _).1 rfl, ?_⟩
  simp only [List.forall_mem_cons]
  refine ⟨?_, ?_, ?_, ?_, by simp⟩
  · exact (items _ rfl _).2.1 (.sign List.mem_cons_self (.inl rfl))
  · exact (items _ rfl _).2.1 (.zeroInFront (by decide))
  · exact (items _ rfl _).2.1 (.blank List.mem_cons_self rfl)
  · exact (items _ rfl _).2.1 (.outOfRange (by decide))

end Value

end RecordSchema
