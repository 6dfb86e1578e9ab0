import Mathlib.Tactic.IntervalCases
import RecordSchema.Proofs.Fallible
import RecordSchema.Proofs.Numerals
import RecordSchema.Value.Conversion

namespace RecordSchema

namespace Number

inductive RadixMark : Char → Nat → Prop
  | hexadecimal {c : Char} (h : c = 'x' ∨ c = 'X') : RadixMark c 16
  | octal {c : Char} (h : c = 'o' ∨ c = 'O') : RadixMark c 8
  | binary {c : Char} (h : c = 'b' ∨ c = 'B') : RadixMark c 2

/-- Digits have values below the radix, where letters of either case go on after nine. -/
def RadixDigit (radix : Nat) (c : Char) (d : Nat) : Prop :=
  d < radix ∧
    ("0123456789abcdef".toList[d]? = some c ∨ "0123456789ABCDEF".toList[d]? = some c)

/-- The number that a text without blanks at its ends spells. -/
inductive Spells : List Char → Number → Prop
  | nothing : Spells [] (.zero false)
  | infinity {negative : Bool} {sign : List Char} (signed : Numeral.Sign negative sign) :
      Spells (sign ++ "Infinity".toList) (.infinite negative)
  | radix {mark : Char} {radix : Nat} {text : List Char} {digits : List Nat}
      (marks : RadixMark mark radix) (nonempty : text ≠ [])
      (each : List.Forall₂ (RadixDigit radix) text digits) :
      Spells ('0' :: mark :: text) (.ofNat (Nat.ofDigits radix digits.reverse))
  | decimal {negative : Bool} {sign body : List Char} {n : Numeral}
      (signed : Numeral.Sign negative sign) (spelled : n.Spelled body) :
      Spells (sign ++ body) (n.toNumber negative)

/-- The text spells an integer in a radix other than ten, from `2 ^ 64` on. -/
def Wide (text : List Char) : Prop :=
  ∃ mark radix rest digits, text = '0' :: mark :: rest ∧ RadixMark mark radix ∧
    List.Forall₂ (RadixDigit radix) rest digits ∧ Nat.pow 2 64 ≤ Nat.ofDigits radix digits.reverse

theorem radix?_eq_some_iff (c : Char) (radix : Nat) : radix? c = some radix ↔ RadixMark c radix := by
  constructor
  · intro h
    unfold radix? at h
    split at h <;> cases h
    · exact .hexadecimal (.inl rfl)
    · exact .hexadecimal (.inr rfl)
    · exact .octal (.inl rfl)
    · exact .octal (.inr rfl)
    · exact .binary (.inl rfl)
    · exact .binary (.inr rfl)
  · intro h
    cases h with
    | hexadecimal h | octal h | binary h => rcases h with rfl | rfl <;> rfl

theorem RadixMark.le_sixteen {c : Char} {radix : Nat} (h : RadixMark c radix) : radix ≤ 16 := by
  cases h <;> decide

theorem RadixMark.isPart_eq_false {c : Char} {radix : Nat} (h : RadixMark c radix) :
    Numeral.isPart c = false := by
  cases h with
  | hexadecimal h | octal h | binary h => rcases h with rfl | rfl <;> rfl

theorem isUpper_iff (c : Char) : c.isUpper = true ↔ 'A'.val ≤ c.val ∧ c.val ≤ 'Z'.val :=
  decide_eq_true_iff

theorem isLower_iff (c : Char) : c.isLower = true ↔ 'a'.val ≤ c.val ∧ c.val ≤ 'z'.val := by
  have parts : c.isLower = (decide ('a'.val ≤ c.val) && decide (c.val ≤ 'z'.val)) := rfl
  rw [parts, Bool.and_eq_true, decide_eq_true_iff, decide_eq_true_iff]

theorem toNat_of_isUpper {c : Char} (h : c.isUpper = true) : 65 ≤ c.toNat :=
  UInt32.le_iff_toNat_le.1 ((isUpper_iff c).1 h).1

theorem toNat_of_isLower {c : Char} (h : c.isLower = true) : 97 ≤ c.toNat :=
  UInt32.le_iff_toNat_le.1 ((isLower_iff c).1 h).1

theorem isAlpha_eq (c : Char) : c.isAlpha = (c.isUpper || c.isLower) :=
  rfl

theorem isAlphanum_eq (c : Char) : c.isAlphanum = (c.isUpper || c.isLower || c.isDigit) :=
  rfl

theorem isAlpha_of_isDigit {c : Char} (h : c.isDigit = true) : c.isAlpha = false := by
  obtain ⟨-, most⟩ := Char.isDigit_iff_toNat.1 h
  have nine : '9'.toNat = 57 := rfl
  rw [isAlpha_eq, Bool.or_eq_false_iff, ← Bool.not_eq_true, ← Bool.not_eq_true]
  constructor
  · intro upper
    have least := toNat_of_isUpper upper
    omega
  · intro lower
    have least := toNat_of_isLower lower
    omega

theorem isForeign_eq_false {c : Char} (h : Numeral.isPart c = true) : isForeign c = false := by
  simp only [Numeral.isPart, Bool.or_eq_true, beq_iff_eq] at h
  obtain ((((digit | rfl) | rfl) | rfl) | rfl) | rfl := h
  · rw [isForeign, isAlpha_of_isDigit digit]
    rfl
  all_goals rfl

theorem isForeign_of_toLower {c : Char} (h : isForeign c.toLower = true) : isForeign c = true := by
  by_cases upper : c.isUpper = true
  · have letter : c.isAlpha = true := by rw [isAlpha_eq, upper, Bool.true_or]
    simp only [isForeign, letter, Bool.true_and, Bool.and_eq_true, bne_iff_ne]
    constructor <;> (rintro rfl; cases h)
  · have same : c.toLower = c := dif_neg (mt (isUpper_iff c).2 upper)
    rwa [same] at h

theorem any_isForeign_of_ofWord? {letters : List Char} {n : Number} (h : ofWord? letters = some n) :
    letters.any isForeign = true := by
  have word : (letters.map Char.toLower).any isForeign = true := by
    simp only [ofWord?] at h
    split at h
    · next words => rcases words with same | same <;> (rw [same]; rfl)
    · split at h
      · next same => rw [same]; rfl
      · cases h
  obtain ⟨c, mem, foreign⟩ := List.any_eq_true.1 (List.any_map ▸ word)
  exact List.any_eq_true.2 ⟨c, mem, isForeign_of_toLower foreign⟩

theorem isPart_of_decimal? {text : List Char} {x : Number} (h : Numeral.decimal? text = some x) :
    ∀ c ∈ text, Numeral.isPart c = true := by
  obtain ⟨_, sign, _, body, signed, spelled, rfl, -⟩ := (Numeral.decimal?_eq_some_iff text x).1 h
  exact List.forall_mem_append.2 ⟨signed.isPart, spelled.isPart⟩

/-- Without foreign letters a text is no word, and with them it is no numeral. -/
theorem ofPlain_eq (text : List Char) : ofPlain text = (Numeral.decimal? text).getD .nan := by
  cases foreign : text.any isForeign with
  | true =>
      obtain ⟨c, mem, other⟩ := List.any_eq_true.1 foreign
      have none : Numeral.decimal? text = none := by
        rw [Option.eq_none_iff_forall_ne_some]
        intro x read
        rw [isForeign_eq_false (isPart_of_decimal? read c mem)] at other
        cases other
      rw [ofPlain, foreign, if_pos rfl, none, Option.getD_none]
  | false =>
      rw [ofPlain, foreign, if_neg Bool.false_ne_true, parse?]
      cases Numeral.decimal? text with
      | some x => rfl
      | none =>
          obtain ⟨sign, -, split⟩ := Numeral.sign_of_scanSign text
          have none : ofWord? (Numeral.scanSign text).2 = none := by
            rw [Option.eq_none_iff_forall_ne_some]
            intro n word
            have letters := any_isForeign_of_ofWord? word
            rw [split, List.any_append, letters, Bool.or_true] at foreign
            cases foreign
          simp only [none, Option.map_none]

theorem toNat_of_digit? {radix : Nat} {c : Char} {d : Nat} (h : Numeral.digit? radix c = some d) :
    d < radix ∧ (c.toNat = 48 + d ∧ d < 10 ∨ (c.toNat = 87 + d ∨ c.toNat = 55 + d) ∧ 10 ≤ d) := by
  simp only [Numeral.digit?, Option.ite_none_right_eq_some, Option.some.injEq] at h
  obtain ⟨below, value⟩ := h
  rw [value] at below
  refine ⟨below, ?_⟩
  split at value
  · next digit =>
      obtain ⟨least, most⟩ := Char.isDigit_iff_toNat.1 digit
      have zero : '0'.toNat = 48 := rfl
      have nine : '9'.toNat = 57 := rfl
      omega
  · split at value
    · next lower =>
        have least := toNat_of_isLower lower
        omega
    · split at value
      · next upper =>
          have least := toNat_of_isUpper upper
          omega
      · omega

theorem radixDigit_of_digit? {radix : Nat} (low : radix ≤ 16) {c : Char} {d : Nat}
    (h : Numeral.digit? radix c = some d) : RadixDigit radix c d := by
  have back {start : Nat} (same : c.toNat = start + d) : some (Char.ofNat (start + d)) = some c := by
    rw [← same, Char.ofNat_toNat]
  obtain ⟨below, ⟨same, decimal⟩ | ⟨same | same, letter⟩⟩ := toNat_of_digit? h
  · refine ⟨below, .inl ?_⟩
    rw [← back same]
    interval_cases d <;> rfl
  · refine ⟨below, .inl ?_⟩
    have small : d < 16 := Nat.lt_of_lt_of_le below low
    rw [← back same]
    interval_cases d <;> rfl
  · refine ⟨below, .inr ?_⟩
    have small : d < 16 := Nat.lt_of_lt_of_le below low
    rw [← back same]
    interval_cases d <;> rfl

theorem RadixDigit.digit?_eq {radix : Nat} (low : radix ≤ 16) {c : Char} {d : Nat}
    (h : RadixDigit radix c d) : Numeral.digit? radix c = some d := by
  obtain ⟨below, listed⟩ := h
  have small : d < 16 := Nat.lt_of_lt_of_le below low
  interval_cases d <;> rcases listed with same | same <;> cases same <;> exact if_pos below
theorem isAlphanum_of_digit? {radix : Nat} {c : Char} {d : Nat}
    (h : Numeral.digit? radix c = some d) : c.isAlphanum = true := by
  simp only [Numeral.digit?] at h
  split at h
  · next digit => rw [isAlphanum_eq, digit, Bool.or_true]
  · split at h
    · next lower => rw [isAlphanum_eq, lower, Bool.or_true, Bool.true_or]
    · split at h
      · next upper => rw [isAlphanum_eq, upper, Bool.true_or, Bool.true_or]
      · rw [if_neg (Nat.lt_irrefl _)] at h
        cases h

theorem all_isAlphanum_of_natOfRadix? {radix n : Nat} {text : List Char}
    (h : Numeral.natOfRadix? radix text = some n) : text.all Char.isAlphanum = true := by
  obtain ⟨digits, each, -⟩ := (Numeral.natOfRadix?_eq_some_iff radix text n).1 h
  rw [List.all_eq_true]
  intro c mem
  obtain ⟨d, -, digit⟩ := Fallible.forall₂_exists_left each.flip mem
  exact isAlphanum_of_digit? digit

theorem word64?_of_isAlphanum (radix : Nat) {text : List Char} (nonempty : text ≠ [])
    (letters : text.all Char.isAlphanum = true) :
    word64? radix text = (Numeral.natOfRadix? radix text).filter (· < Nat.pow 2 64) := by
  unfold word64?
  split
  · cases letters
  · simp [nonempty]

theorem ofRadixDigits_eq (radix : Nat) {text : List Char} (nonempty : text ≠ []) :
    ofRadixDigits radix text =
      (((Numeral.natOfRadix? radix text).filter (· < Nat.pow 2 64)).map ofNat).getD .nan := by
  cases letters : text.all Char.isAlphanum with
  | true => simp [ofRadixDigits, letters, nonempty, word64?_of_isAlphanum radix nonempty letters]
  | false =>
      have none : Numeral.natOfRadix? radix text = none := by
        rw [Option.eq_none_iff_forall_ne_some]
        intro n read
        rw [all_isAlphanum_of_natOfRadix? read] at letters
        cases letters
      simp [ofRadixDigits, letters, none]

theorem ofRadixDigits_of_digits {radix : Nat} (low : radix ≤ 16) {text : List Char}
    {digits : List Nat} (nonempty : text ≠ [])
    (each : List.Forall₂ (RadixDigit radix) text digits) :
    ofRadixDigits radix text =
      if Nat.ofDigits radix digits.reverse < Nat.pow 2 64 then
        .ofNat (Nat.ofDigits radix digits.reverse)
      else .nan := by
  have values := each.imp fun _ _ digit => digit.digit?_eq low
  have read := (Numeral.natOfRadix?_eq_some_iff radix text _).2 ⟨digits, values, rfl⟩
  rw [ofRadixDigits_eq radix nonempty, read]
  generalize Nat.ofDigits radix digits.reverse = value
  by_cases narrow : value < Nat.pow 2 64
  · rw [Option.filter_some, if_pos (decide_eq_true narrow), if_pos narrow, Option.map_some,
      Option.getD_some]
  · rw [Option.filter_some, if_neg (mt of_decide_eq_true narrow), if_neg narrow, Option.map_none,
      Option.getD_none]

theorem ofTrimmed_of_isPart {text : List Char} (nonempty : text ≠ [])
    (parts : ∀ c ∈ text, Numeral.isPart c = true) : ofTrimmed text = ofPlain text := by
  have finite (word : List Char) (letter : 'I' ∈ word) : text ≠ word := by
    rintro rfl
    cases parts 'I' letter
  unfold ofTrimmed
  rw [if_neg (by simpa using nonempty),
    if_neg (not_or.2 ⟨finite _ (by decide), finite _ (by decide)⟩), if_neg (finite _ (by decide))]
  split
  · next c digits =>
      split
      · next marks =>
          have other := ((radix?_eq_some_iff c _).1 marks).isPart_eq_false
          rw [parts c (by simp)] at other
          cases other
      · rfl
  · rfl

theorem ofTrimmed_of_decimal {negative : Bool} {sign body : List Char} {n : Numeral}
    (signed : Numeral.Sign negative sign) (spelled : n.Spelled body) :
    ofTrimmed (sign ++ body) = n.toNumber negative := by
  have read := (Numeral.decimal?_eq_some_iff (sign ++ body) _).2
    ⟨negative, sign, n, body, signed, spelled, rfl, rfl⟩
  rw [ofTrimmed_of_isPart ?_ (isPart_of_decimal? read), ofPlain_eq, read, Option.getD_some]
  intro empty
  rw [empty] at read
  cases read

theorem ofTrimmed_of_mark {mark : Char} {radix : Nat} (marks : RadixMark mark radix)
    (text : List Char) : ofTrimmed ('0' :: mark :: text) = ofRadixDigits radix text := by
  unfold ofTrimmed
  rw [if_neg (by simp), if_neg (by rintro (h | h) <;> cases h), if_neg (by rintro ⟨⟩)]
  simp only [(radix?_eq_some_iff mark radix).2 marks]

theorem ofTrimmed_infinity {negative : Bool} {sign : List Char}
    (signed : Numeral.Sign negative sign) :
    ofTrimmed (sign ++ "Infinity".toList) = .infinite negative := by
  cases signed <;> rfl

theorem Spells.ofTrimmed_eq {text : List Char} {n : Number} (h : Spells text n)
    (narrow : ¬ Wide text) : ofTrimmed text = n := by
  cases h with
  | nothing => rfl
  | infinity signed => exact ofTrimmed_infinity signed
  | @radix mark radix rest digits marks nonempty each =>
      rw [ofTrimmed_of_mark marks, ofRadixDigits_of_digits marks.le_sixteen nonempty each, if_pos]
      rw [← Nat.not_le]
      intro wide
      exact narrow ⟨mark, radix, rest, digits, rfl, marks, each, wide⟩
  | decimal signed spelled => exact ofTrimmed_of_decimal signed spelled

theorem Wide.ofTrimmed_eq {text : List Char} (h : Wide text) : ofTrimmed text = .nan := by
  obtain ⟨mark, radix, rest, digits, rfl, marks, each, wide⟩ := h
  have nonempty : rest ≠ [] := by
    rintro rfl
    cases each
    rw [List.reverse_nil, Nat.ofDigits_nil] at wide
    exact absurd wide (by decide)
  rw [ofTrimmed_of_mark marks, ofRadixDigits_of_digits marks.le_sixteen nonempty each,
    if_neg (Nat.not_lt.2 wide)]

theorem exists_spells_of_ofRadixDigits {mark : Char} {radix : Nat} {text : List Char}
    (marks : RadixMark mark radix) (h : ofRadixDigits radix text ≠ .nan) :
    ∃ n, Spells ('0' :: mark :: text) n := by
  have nonempty : text ≠ [] := by
    rintro rfl
    exact h rfl
  rw [ofRadixDigits_eq radix nonempty] at h
  cases read : Numeral.natOfRadix? radix text with
  | none => exact absurd (by rw [read]; rfl) h
  | some n =>
      obtain ⟨digits, each, -⟩ := (Numeral.natOfRadix?_eq_some_iff radix text n).1 read
      have digits := each.imp fun _ _ digit => radixDigit_of_digit? marks.le_sixteen digit
      exact ⟨_, .radix marks nonempty digits⟩

theorem exists_spells_of_ofPlain {text : List Char} (h : ofPlain text ≠ .nan) :
    ∃ n, Spells text n := by
  rw [ofPlain_eq] at h
  cases read : Numeral.decimal? text with
  | none => exact absurd (by rw [read]; rfl) h
  | some x =>
      obtain ⟨_, _, _, _, signed, spelled, rfl, rfl⟩ :=
        (Numeral.decimal?_eq_some_iff text x).1 read
      exact ⟨_, .decimal signed spelled⟩

/-- What is read as a number spells one. -/
theorem exists_spells_of_ofTrimmed {text : List Char} (h : ofTrimmed text ≠ .nan) :
    ∃ n, Spells text n := by
  unfold ofTrimmed at h
  split at h
  · next empty =>
      rw [List.isEmpty_iff.1 empty]
      exact ⟨_, .nothing⟩
  · split at h
    · next infinite =>
        rcases infinite with rfl | rfl
        · exact ⟨_, .infinity .absent⟩
        · exact ⟨_, .infinity .plus⟩
    · split at h
      · next infinite =>
          subst infinite
          exact ⟨_, .infinity .minus⟩
      · split at h
        · split at h
          · next marks => exact exists_spells_of_ofRadixDigits ((radix?_eq_some_iff _ _).1 marks) h
          · exact exists_spells_of_ofPlain h
        · exact exists_spells_of_ofPlain h

theorem ofNat_ne_nan (n : Nat) : ofNat n ≠ .nan := by
  rw [ofNat, nearest, ofUnits]
  split <;> simp

theorem Spells.ne_nan_of_wide {text : List Char} {n : Number} (h : Spells text n)
    (wide : Wide text) : n ≠ .nan := by
  obtain ⟨mark, radix, rest, digits, same, marks, -⟩ := wide
  cases h with
  | nothing => cases same
  | infinity signed => cases signed <;> cases same
  | radix => exact ofNat_ne_nan _
  | decimal signed spelled =>
      have parts := List.forall_mem_append.2 ⟨signed.isPart, spelled.isPart⟩
      rw [same] at parts
      have other := marks.isPart_eq_false
      rw [parts mark (by simp)] at other
      cases other

end Number

/-- A text is read as the number that it spells without its blanks at the ends, if this is no wide
integer; wide integers and texts that spell nothing are read as NaN. -/
theorem Value.toNumber_string (s : String) :
    (∀ n, Number.Spells (Text.trim s.toList) n →
      ((Value.string s).toNumber = n ↔ ¬ Number.Wide (Text.trim s.toList))) ∧
    (Number.Wide (Text.trim s.toList) → (Value.string s).toNumber = .nan) ∧
    ((∀ n, ¬ Number.Spells (Text.trim s.toList) n) → (Value.string s).toNumber = .nan) := by
  have read : (Value.string s).toNumber = Number.ofTrimmed (Text.trim s.toList) := rfl
  rw [read]
  refine ⟨?_, Number.Wide.ofTrimmed_eq, ?_⟩
  · intro n spells
    constructor
    · intro same wide
      rw [wide.ofTrimmed_eq] at same
      exact spells.ne_nan_of_wide wide same.symm
    · exact spells.ofTrimmed_eq
  · intro nothing
    by_contra other
    obtain ⟨n, spells⟩ := Number.exists_spells_of_ofTrimmed other
    exact nothing n spells

/-- The hexadecimal numeral of `2 ^ 64` is not read as the number that it spells. -/
theorem Value.wide_hexadecimal_misread :
    ∃ n, Number.Spells (Text.trim "0x10000000000000000".toList) n ∧
      (Value.string "0x10000000000000000").toNumber ≠ n := by
  have zeros (n : Nat) :
      List.Forall₂ (Number.RadixDigit 16) (List.replicate n '0') (List.replicate n 0) := by
    induction n with
    | zero => exact .nil
    | succ n ih => exact .cons ⟨by decide, .inl rfl⟩ ih
  have each : List.Forall₂ (Number.RadixDigit 16) "10000000000000000".toList
      (1 :: List.replicate 16 0) :=
    .cons ⟨by decide, .inl rfl⟩ (zeros 16)
  have marks : Number.RadixMark 'x' 16 := .hexadecimal (.inl rfl)
  have wide : Number.Wide (Text.trim "0x10000000000000000".toList) := by
    refine ⟨'x', 16, _, _, rfl, marks, each, ?_⟩
    decide
  have misread : (Value.string "0x10000000000000000").toNumber = .nan := wide.ofTrimmed_eq
  refine ⟨_, .radix marks (by decide) each, ?_⟩
  rw [misread]
  exact (Number.ofNat_ne_nan _).symm

end RecordSchema
