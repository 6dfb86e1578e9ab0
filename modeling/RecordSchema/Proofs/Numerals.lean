import Mathlib.Data.List.Forall2
import Mathlib.Data.List.TakeWhile
import Mathlib.Data.Nat.Digits.Defs
import RecordSchema.Number.Numeral

namespace RecordSchema.Numeral

inductive Sign : Bool → List Char → Prop
  | absent : Sign false []
  | plus : Sign false ['+']
  | minus : Sign true ['-']

def Digits (text : List Char) : Prop :=
  ∀ c ∈ text, c.isDigit = true

inductive Fraction : Option (List Char) → List Char → Prop
  | absent : Fraction none []
  | point {digits : List Char} (h : Digits digits) : Fraction (some digits) ('.' :: digits)

inductive Exponent : Option (Bool × List Char) → List Char → Prop
  | absent : Exponent none []
  | power {mark : Char} {negative : Bool} {sign digits : List Char}
      (marks : mark = 'e' ∨ mark = 'E') (signed : Sign negative sign) (h : Digits digits)
      (nonempty : digits ≠ []) : Exponent (some (negative, digits)) (mark :: (sign ++ digits))

/-- The text spells the numeral: there are digits before the point or after it, and where an
exponent is announced it has digits. -/
inductive Spelled : Numeral → List Char → Prop
  | intro {whole fractionText exponentText : List Char} {fraction : Option (List Char)}
      {exponent : Option (Bool × List Char)} (digits : Digits whole)
      (point : Fraction fraction fractionText) (power : Exponent exponent exponentText)
      (nonempty : whole ++ fraction.getD [] ≠ []) :
      Spelled ⟨whole, fraction, exponent⟩ (whole ++ (fractionText ++ exponentText))

def isPart (c : Char) : Bool :=
  c.isDigit || c == '.' || c == 'e' || c == 'E' || c == '+' || c == '-'

theorem isPart_of_isDigit {c : Char} (h : c.isDigit = true) : isPart c = true := by
  simp [isPart, h]

theorem Sign.isPart {negative : Bool} {sign : List Char} (h : Sign negative sign) :
    ∀ c ∈ sign, isPart c = true := by
  cases h with
  | absent => simp
  | plus | minus => exact List.forall_mem_singleton.2 rfl

theorem Digits.isPart {text : List Char} (h : Digits text) : ∀ c ∈ text, isPart c = true :=
  fun c mem => isPart_of_isDigit (h c mem)

theorem Fraction.isPart {fraction : Option (List Char)} {text : List Char}
    (h : Fraction fraction text) : ∀ c ∈ text, isPart c = true := by
  cases h with
  | absent => simp
  | point digits => exact List.forall_mem_cons.2 ⟨rfl, digits.isPart⟩

theorem Exponent.isPart {exponent : Option (Bool × List Char)} {text : List Char}
    (h : Exponent exponent text) : ∀ c ∈ text, isPart c = true := by
  cases h with
  | absent => simp
  | power marks signed digits =>
      refine List.forall_mem_cons.2 ⟨?_, ?_⟩
      · rcases marks with rfl | rfl <;> rfl
      · exact List.forall_mem_append.2 ⟨signed.isPart, digits.isPart⟩

theorem Spelled.isPart {n : Numeral} {text : List Char} (h : n.Spelled text) :
    ∀ c ∈ text, isPart c = true := by
  cases h with
  | intro digits point power =>
      simp only [List.forall_mem_append]
      exact ⟨digits.isPart, point.isPart, power.isPart⟩

theorem takeWhile_digits {text : List Char} (h : Digits text) (rest : List Char) :
    (text ++ rest).takeWhile Char.isDigit = text ++ rest.takeWhile Char.isDigit :=
  List.takeWhile_append_of_pos h

theorem dropWhile_digits {text : List Char} (h : Digits text) (rest : List Char) :
    (text ++ rest).dropWhile Char.isDigit = rest.dropWhile Char.isDigit :=
  List.dropWhile_append_of_pos h

theorem digits_takeWhile (text : List Char) : Digits (text.takeWhile Char.isDigit) :=
  fun _ mem => List.mem_takeWhile_imp mem

/-- Where a fraction or an exponent is due, no digit follows. -/
theorem head_not_digit {fraction : Option (List Char)} {exponent : Option (Bool × List Char)}
    {fractionText exponentText : List Char} (point : Fraction fraction fractionText)
    (power : Exponent exponent exponentText) :
    (fractionText ++ exponentText).takeWhile Char.isDigit = [] ∧
      (fractionText ++ exponentText).dropWhile Char.isDigit = fractionText ++ exponentText := by
  cases point with
  | point => exact ⟨rfl, rfl⟩
  | absent =>
      cases power with
      | absent => exact ⟨rfl, rfl⟩
      | power marks => rcases marks with rfl | rfl <;> exact ⟨rfl, rfl⟩

theorem scanSign_of_unsigned {text : List Char} (h : ∀ c r, text = c :: r → c ≠ '-' ∧ c ≠ '+') :
    scanSign text = (false, text) := by
  cases text with
  | nil => rfl
  | cons c r =>
      obtain ⟨minus, plus⟩ := h c r rfl
      unfold scanSign
      split
      · next same => exact absurd (List.cons.inj same).1 minus
      · next same => exact absurd (List.cons.inj same).1 plus
      · rfl

theorem scanSign_append {negative : Bool} {sign text : List Char} (h : Sign negative sign)
    (unsigned : ∀ c r, text = c :: r → c ≠ '-' ∧ c ≠ '+') :
    scanSign (sign ++ text) = (negative, text) := by
  cases h with
  | absent => exact scanSign_of_unsigned unsigned
  | plus | minus => rfl

theorem sign_of_scanSign (text : List Char) :
    ∃ sign, Sign (scanSign text).1 sign ∧ text = sign ++ (scanSign text).2 := by
  unfold scanSign
  split
  · exact ⟨_, .minus, rfl⟩
  · exact ⟨_, .plus, rfl⟩
  · exact ⟨_, .absent, rfl⟩

theorem unsigned_of_isDigit {text : List Char} (h : Digits text) (c : Char) (r : List Char)
    (same : text = c :: r) : c ≠ '-' ∧ c ≠ '+' := by
  have digit : c.isDigit = true := h c (by simp [same])
  constructor <;> (rintro rfl; cases digit)

theorem scanFraction_append {fraction : Option (List Char)} {exponent : Option (Bool × List Char)}
    {fractionText exponentText : List Char} (point : Fraction fraction fractionText)
    (power : Exponent exponent exponentText) :
    scanFraction (fractionText ++ exponentText) = (fraction, exponentText) := by
  cases point with
  | point digits =>
      have stop := head_not_digit .absent power
      rw [List.nil_append] at stop
      rw [List.cons_append, scanFraction, takeWhile_digits digits, dropWhile_digits digits, stop.1,
        stop.2, List.append_nil]
  | absent =>
      cases power with
      | absent => rfl
      | power marks => rcases marks with rfl | rfl <;> rfl

theorem scanExponent_of_mark {mark : Char} (marks : mark = 'e' ∨ mark = 'E') (r : List Char) :
    scanExponent (mark :: r) =
      (some ((scanSign r).1, (scanSign r).2.takeWhile Char.isDigit),
        (scanSign r).2.dropWhile Char.isDigit) := by
  rw [scanExponent, if_pos marks]

theorem scanExponent_of_exponent {exponent : Option (Bool × List Char)} {text : List Char}
    (h : Exponent exponent text) : scanExponent text = (exponent, []) := by
  cases h with
  | absent => rfl
  | power marks signed digits =>
      have taken := takeWhile_digits digits []
      have dropped := dropWhile_digits digits []
      rw [List.append_nil] at taken dropped
      rw [scanExponent_of_mark marks, scanSign_append signed (unsigned_of_isDigit digits), taken,
        dropped, List.takeWhile_nil, List.append_nil, List.dropWhile_nil]

theorem scan_eq (text : List Char) :
    scan text =
      (⟨text.takeWhile Char.isDigit, (scanFraction (text.dropWhile Char.isDigit)).1,
          (scanExponent (scanFraction (text.dropWhile Char.isDigit)).2).1⟩,
        (scanExponent (scanFraction (text.dropWhile Char.isDigit)).2).2) :=
  rfl

/-- Scanning takes the parts of a numeral out of its text. -/
theorem scan_of_spelled {n : Numeral} {text : List Char} (h : n.Spelled text) :
    scan text = (n, []) := by
  cases h with
  | intro digits point power =>
      obtain ⟨taken, dropped⟩ := head_not_digit point power
      rw [scan_eq, takeWhile_digits digits, dropWhile_digits digits, taken, dropped,
        scanFraction_append point power, scanExponent_of_exponent power, List.append_nil]

theorem fraction_of_scan (text : List Char) : ∃ fractionText,
    Fraction (scanFraction text).1 fractionText ∧ text = fractionText ++ (scanFraction text).2 := by
  unfold scanFraction
  split
  · next r =>
      refine ⟨'.' :: r.takeWhile Char.isDigit, .point (digits_takeWhile r), ?_⟩
      rw [List.cons_append, List.takeWhile_append_dropWhile]
  · exact ⟨_, .absent, rfl⟩

theorem exponent_of_scan {text : List Char} (all : (scanExponent text).2 = [])
    (digits : ∀ s, (scanExponent text).1 = some s → s.2 ≠ []) :
    Exponent (scanExponent text).1 text := by
  cases text with
  | nil => exact .absent
  | cons c r =>
      by_cases marks : c = 'e' ∨ c = 'E'
      · rw [scanExponent_of_mark marks] at all digits ⊢
        obtain ⟨sign, signed, split⟩ := sign_of_scanSign r
        have whole : (scanSign r).2.takeWhile Char.isDigit = (scanSign r).2 := by
          have joined := List.takeWhile_append_dropWhile (p := Char.isDigit) (l := (scanSign r).2)
          dsimp only at all
          rwa [all, List.append_nil] at joined
        have parts := Exponent.power marks signed (digits_takeWhile _) (digits _ rfl)
        dsimp only
        rw [whole] at parts ⊢
        rwa [← split] at parts
      · rw [scanExponent, if_neg marks] at all
        cases all

theorem spelled_of_scan {text : List Char} (all : (scan text).2 = [])
    (digits : (scan text).1.hasDigits = true) (power : (scan text).1.hasExponentDigits = true) :
    (scan text).1.Spelled text := by
  rw [scan_eq] at all digits power ⊢
  obtain ⟨fractionText, point, split⟩ := fraction_of_scan (text.dropWhile Char.isDigit)
  have parts := exponent_of_scan all fun s announced empty => by
    simp only [hasExponentDigits, announced, empty, List.isEmpty_nil] at power
    cases power
  have nonempty : text.takeWhile Char.isDigit ++
      (scanFraction (text.dropWhile Char.isDigit)).1.getD [] ≠ [] := by
    rw [hasDigits, fractionDigits, Bool.not_eq_true', List.isEmpty_eq_false_iff] at digits
    exact digits
  have spelled := Spelled.intro (digits_takeWhile text) point parts nonempty
  rwa [← split, List.takeWhile_append_dropWhile] at spelled

theorem Spelled.hasDigits {n : Numeral} {text : List Char} (h : n.Spelled text) :
    n.hasDigits = true := by
  cases h with
  | intro _ _ _ nonempty => simpa [Numeral.hasDigits, fractionDigits] using nonempty

theorem Spelled.hasExponentDigits {n : Numeral} {text : List Char} (h : n.Spelled text) :
    n.hasExponentDigits = true := by
  cases h with
  | intro _ _ power =>
      cases power with
      | absent => rfl
      | power _ _ _ nonempty => simpa [Numeral.hasExponentDigits] using nonempty

theorem Spelled.unsigned {n : Numeral} {text : List Char} (h : n.Spelled text) (c : Char)
    (r : List Char) (same : text = c :: r) : c ≠ '-' ∧ c ≠ '+' := by
  cases h with
  | @intro whole _ _ _ _ digits point power nonempty =>
      cases whole with
      | cons first _ =>
          obtain ⟨rfl, -⟩ := List.cons.inj same
          exact unsigned_of_isDigit digits _ _ rfl
      | nil =>
          cases point with
          | absent => exact absurd rfl nonempty
          | point =>
              cases same
              exact ⟨by decide, by decide⟩

/-- A decimal is read from the texts that spell a numeral after an optional sign, and its value is
the number nearest to the numeral. -/
theorem decimal?_eq_some_iff (text : List Char) (x : Number) :
    decimal? text = some x ↔ ∃ negative sign n body, Sign negative sign ∧ Spelled n body ∧
      text = sign ++ body ∧ x = n.toNumber negative := by
  constructor
  · intro h
    obtain ⟨sign, signed, split⟩ := sign_of_scanSign text
    simp only [decimal?, Option.ite_none_right_eq_some, Bool.and_eq_true, List.isEmpty_iff,
      Option.some_inj] at h
    obtain ⟨⟨⟨all, digits⟩, power⟩, value⟩ := h
    exact ⟨_, sign, _, _, signed, spelled_of_scan all digits power, split, value.symm⟩
  · rintro ⟨negative, sign, n, body, signed, spelled, rfl, rfl⟩
    simp only [decimal?, scanSign_append signed spelled.unsigned, scan_of_spelled spelled,
      spelled.hasDigits, spelled.hasExponentDigits, List.isEmpty_nil, Bool.and_self, if_true]

theorem foldl_eq_ofDigits (radix : Nat) (digits : List Nat) :
    digits.foldl (fun m d => m * radix + d) 0 = Nat.ofDigits radix digits.reverse := by
  rw [Nat.ofDigits_eq_foldr, List.foldr_reverse]
  congr 1
  funext m d
  rw [Nat.cast_id, Nat.add_comm, Nat.mul_comm]

/-- Reading goes on from the number that the digits before the text stand for. -/
theorem foldlM_digit?_eq_some_iff (radix start : Nat) (text : List Char) (n : Nat) :
    text.foldlM (fun m c => (digit? radix c).map (m * radix + ·)) start = some n ↔
      ∃ digits, List.Forall₂ (fun c d => digit? radix c = some d) text digits ∧
        n = digits.foldl (fun m d => m * radix + d) start := by
  induction text generalizing start with
  | nil => simp [eq_comm]
  | cons c r ih =>
      rw [List.foldlM_cons]
      cases first : digit? radix c with
      | none => simp [first, List.forall₂_cons_left_iff]
      | some d => simp [first, ih, List.forall₂_cons_left_iff]

/-- Digits of a radix spell the number that has them in positional notation. -/
theorem natOfRadix?_eq_some_iff (radix : Nat) (text : List Char) (n : Nat) :
    natOfRadix? radix text = some n ↔ ∃ digits,
      List.Forall₂ (fun c d => digit? radix c = some d) text digits ∧
        n = Nat.ofDigits radix digits.reverse := by
  rw [natOfRadix?, foldlM_digit?_eq_some_iff]
  simp only [foldl_eq_ofDigits]

end RecordSchema.Numeral
