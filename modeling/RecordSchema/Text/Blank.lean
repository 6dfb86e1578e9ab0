namespace RecordSchema.Text

def isBlank (c : Char) : Bool :=
  let n := c.toNat
  (9 ≤ n && n ≤ 13) || n == 0x20 || n == 0x85 || n == 0xA0 || n == 0x1680 ||
    (0x2000 ≤ n && n ≤ 0x200A) || n == 0x2028 || n == 0x2029 || n == 0x202F || n == 0x205F ||
    n == 0x3000

def trim (text : List Char) : List Char :=
  ((text.dropWhile isBlank).reverse.dropWhile isBlank).reverse

/-- A text and what is left of it between blanks. What is left has no blank at its ends. -/
inductive Trimmed : List Char → List Char → Prop
  | intro {left part right : List Char} (before : ∀ c ∈ left, isBlank c = true)
      (after : ∀ c ∈ right, isBlank c = true) (first : ∀ c ∈ part.head?, isBlank c = false)
      (last : ∀ c ∈ part.getLast?, isBlank c = false) : Trimmed (left ++ part ++ right) part

theorem dropWhile_blanks {blanks rest : List Char} (before : ∀ c ∈ blanks, isBlank c = true)
    (first : ∀ c ∈ rest.head?, isBlank c = false) : (blanks ++ rest).dropWhile isBlank = rest := by
  rw [List.dropWhile_append_of_pos before]
  cases rest with
  | nil => rfl
  | cons c r => rw [List.dropWhile_cons, first c rfl, if_neg Bool.false_ne_true]

theorem head?_dropWhile_blanks (text : List Char) :
    ∀ c ∈ (text.dropWhile isBlank).head?, isBlank c = false := by
  intro c mem
  have first := List.head?_dropWhile_not isBlank text
  rw [Option.mem_def.1 mem] at first
  exact first

theorem trimmed_trim (text : List Char) : Trimmed text (trim text) := by
  let rest := text.dropWhile isBlank
  let right := rest.reverse.takeWhile isBlank
  have kept : rest = trim text ++ right.reverse := by
    rw [trim, ← List.reverse_append, List.takeWhile_append_dropWhile, List.reverse_reverse]
  have whole : text = text.takeWhile isBlank ++ trim text ++ right.reverse := by
    rw [List.append_assoc, ← kept, List.takeWhile_append_dropWhile]
  have trimmed : Trimmed (text.takeWhile isBlank ++ trim text ++ right.reverse) (trim text) := by
    refine .intro (List.all_eq_true.1 List.all_takeWhile) ?_ ?_ ?_
    · intro c mem
      exact List.all_eq_true.1 List.all_takeWhile c (List.mem_reverse.1 mem)
    · intro c mem
      apply head?_dropWhile_blanks text c
      change c ∈ rest.head?
      rw [kept, List.head?_append, Option.mem_def.1 mem, Option.some_or]
      rfl
    · rw [trim, List.getLast?_reverse]
      exact head?_dropWhile_blanks rest.reverse
  rwa [← whole] at trimmed

theorem Trimmed.trim_eq {text part : List Char} (h : Trimmed text part) : trim text = part := by
  cases h with
  | @intro left _ right before after first last =>
      have backwards : ∀ c ∈ right.reverse, isBlank c = true := fun c mem =>
        after c (List.mem_reverse.1 mem)
      cases part with
      | nil =>
          have blank := List.forall_mem_append.2 ⟨before, after⟩
          rw [List.append_nil, trim, ← List.append_nil (left ++ right),
            dropWhile_blanks blank (by simp)]
          rfl
      | cons c r =>
          have dropped : (left ++ (c :: r ++ right)).dropWhile isBlank = c :: r ++ right :=
            dropWhile_blanks before first
          rw [trim, List.append_assoc, dropped, List.reverse_append,
            dropWhile_blanks backwards (by rwa [List.head?_reverse]), List.reverse_reverse]

end RecordSchema.Text
