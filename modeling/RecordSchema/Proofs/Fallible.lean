import Mathlib.Data.List.Forall2

namespace RecordSchema.Fallible

variable {ε δ α β : Type}

theorem bind_eq_ok {x : Except ε α} {f : α → Except ε β} {b : β} :
    (x >>= f) = .ok b ↔ ∃ a, x = .ok a ∧ f a = .ok b := by
  cases x <;> simp [bind, Except.bind]

theorem map_eq_ok {x : Except ε α} {f : α → β} {b : β} :
    x.map f = .ok b ↔ ∃ a, x = .ok a ∧ f a = b := by
  cases x <;> simp [Except.map]

theorem bind_eq_error {x : Except ε α} {f : α → Except ε β} {e : ε} :
    (x >>= f) = .error e ↔ x = .error e ∨ ∃ a, x = .ok a ∧ f a = .error e := by
  cases x <;> simp [bind, Except.bind]

theorem exists_map_eq_ok {x : Except ε α} {f : α → β} :
    (∃ b, x.map f = .ok b) ↔ ∃ a, x = .ok a := by
  cases x <;> simp [Except.map]

theorem map_eq_error {x : Except ε α} {f : α → β} {e : ε} :
    x.map f = .error e ↔ x = .error e := by
  cases x <;> simp [Except.map]

theorem mapError_eq_ok {x : Except ε α} {f : ε → δ} {a : α} :
    x.mapError f = .ok a ↔ x = .ok a := by
  cases x <;> simp [Except.mapError]

theorem forall₂_exists_left {R : α → β → Prop} {l : List α} {r : List β} {b : β}
    (h : List.Forall₂ R l r) (mem : b ∈ r) : ∃ a ∈ l, R a b := by
  induction h with
  | nil => cases mem
  | cons related _ ih =>
      obtain rfl | mem := List.mem_cons.1 mem
      · exact ⟨_, List.mem_cons_self, related⟩
      · obtain ⟨a, mem, related⟩ := ih mem
        exact ⟨a, List.mem_cons_of_mem _ mem, related⟩

theorem forall₂_with_mem {R : α → β → Prop} {l : List α} {r : List β} (h : List.Forall₂ R l r) :
    List.Forall₂ (fun a b => a ∈ l ∧ b ∈ r ∧ R a b) l r := by
  induction h with
  | nil => exact .nil
  | cons related _ ih =>
      refine .cons ⟨List.mem_cons_self, List.mem_cons_self, related⟩ (ih.imp ?_)
      rintro a b ⟨from_l, from_r, related⟩
      exact ⟨List.mem_cons_of_mem _ from_l, List.mem_cons_of_mem _ from_r, related⟩

theorem forall₂_congr {R S : α → β → Prop} {l : List α} {r : List β}
    (each : ∀ a ∈ l, ∀ b ∈ r, R a b ↔ S a b) : List.Forall₂ R l r ↔ List.Forall₂ S l r := by
  constructor
  · exact fun h => (forall₂_with_mem h).imp fun a b ⟨ha, hb, related⟩ => (each a ha b hb).1 related
  · exact fun h => (forall₂_with_mem h).imp fun a b ⟨ha, hb, related⟩ => (each a ha b hb).2 related

theorem forall_mem_iff_of_forall₂ {R : α → β → Prop} {p : α → Prop} {q : β → Prop} {l : List α}
    {r : List β} (h : List.Forall₂ R l r) (each : ∀ a ∈ l, ∀ b ∈ r, R a b → (p a ↔ q b)) :
    (∀ a ∈ l, p a) ↔ ∀ b ∈ r, q b := by
  have alike := forall₂_with_mem h
  constructor
  · intro holds b mem
    obtain ⟨a, -, from_l, from_r, related⟩ := forall₂_exists_left alike mem
    exact (each a from_l b from_r related).1 (holds a from_l)
  · intro holds a mem
    obtain ⟨b, -, from_l, from_r, related⟩ := forall₂_exists_left alike.flip mem
    exact (each a from_l b from_r related).2 (holds b from_r)

theorem map_eq_of_forall₂ {γ : Type} {R : α → β → Prop} {f : α → γ} {g : β → γ} {l : List α}
    {r : List β} (h : List.Forall₂ R l r) (each : ∀ a ∈ l, ∀ b, R a b → f a = g b) :
    l.map f = r.map g := by
  induction h with
  | nil => rfl
  | cons related _ ih =>
      obtain ⟨first, rest⟩ := List.forall_mem_cons.1 each
      rw [List.map_cons, List.map_cons, first _ related, ih rest]

/-- Related items can be found for all items of a list if they can be found for each. -/
theorem exists_forall₂_iff {R : α → β → Prop} {P : β → Prop} {l : List α} :
    (∃ r, List.Forall₂ R l r ∧ ∀ b ∈ r, P b) ↔ ∀ a ∈ l, ∃ b, R a b ∧ P b := by
  induction l with
  | nil => simp
  | cons a l ih =>
      rw [List.forall_mem_cons, ← ih]
      constructor
      · rintro ⟨r, related, each⟩
        cases related with
        | cons first rest =>
            obtain ⟨head, tail⟩ := List.forall_mem_cons.1 each
            exact ⟨⟨_, first, head⟩, _, rest, tail⟩
      · rintro ⟨⟨b, first, head⟩, r, rest, tail⟩
        exact ⟨b :: r, .cons first rest, List.forall_mem_cons.2 ⟨head, tail⟩⟩

theorem exists_forall₂ {R : α → β → Prop} {l : List α} (each : ∀ a ∈ l, ∃ b, R a b) :
    ∃ r, List.Forall₂ R l r := by
  have paired : ∃ r, List.Forall₂ R l r ∧ ∀ b ∈ r, True :=
    exists_forall₂_iff.2 fun a mem => (each a mem).imp fun _ related => ⟨related, trivial⟩
  exact paired.imp fun _ h => h.1

theorem exists_forall₂_pair {γ : Type} {R : α → β → Prop} {S : α → γ → Prop} {l : List α}
    {r : List β} (h : List.Forall₂ R l r) (each : ∀ a ∈ l, ∃ c, S a c) :
    ∃ pairs : List (β × γ), pairs.map Prod.fst = r ∧
      List.Forall₂ (fun a p => R a p.1 ∧ S a p.2) l pairs := by
  induction h with
  | nil => exact ⟨[], rfl, .nil⟩
  | cons related _ ih =>
      obtain ⟨⟨c, first⟩, rest⟩ := List.forall_mem_cons.1 each
      obtain ⟨pairs, rfl, tail⟩ := ih rest
      exact ⟨(_, c) :: pairs, rfl, .cons ⟨related, first⟩ tail⟩

theorem exists_forall₂_comp_iff {γ : Type} {R : α → β → Prop} {S : β → γ → Prop} {l : List α}
    {n : List γ} :
    (∃ r, List.Forall₂ R l r ∧ List.Forall₂ S r n) ↔
      List.Forall₂ (fun a c => ∃ b, R a b ∧ S b c) l n := by
  constructor
  · rintro ⟨r, left, right⟩
    induction left generalizing n with
    | nil =>
        cases right
        exact .nil
    | cons related _ ih =>
        cases right with
        | cons first rest => exact .cons ⟨_, related, first⟩ (ih rest)
  · intro h
    induction h with
    | nil => exact ⟨[], .nil, .nil⟩
    | cons related _ ih =>
        obtain ⟨b, first, second⟩ := related
        obtain ⟨r, left, right⟩ := ih
        exact ⟨b :: r, .cons first left, .cons second right⟩

/-- Where related items take related steps, related lists do. -/
theorem forall₂_steps {γ ζ : Type} {R : α → β → Prop} {S : γ → ζ → Prop} {C : α → γ → Prop}
    {D : β → ζ → Prop} (step : ∀ a b c, R a b → C a c → ∃ d, D b d ∧ S c d) {l : List α}
    {r : List β} {made : List γ} (related : List.Forall₂ R l r) (steps : List.Forall₂ C l made) :
    ∃ other, List.Forall₂ D r other ∧ List.Forall₂ S made other := by
  induction related generalizing made with
  | nil =>
      cases steps
      exact ⟨[], .nil, .nil⟩
  | cons first _ ih =>
      cases steps with
      | cons taken steps =>
          obtain ⟨d, answered, alike⟩ := step _ _ _ first taken
          obtain ⟨other, rest, alike_rest⟩ := ih steps
          exact ⟨d :: other, .cons answered rest, .cons alike alike_rest⟩

theorem mapM_eq_ok {f : α → Except ε β} {l : List α} {r : List β} :
    l.mapM f = .ok r ↔ List.Forall₂ (fun a b => f a = .ok b) l r := by
  induction l generalizing r with
  | nil => cases r <;> simp [pure, Except.pure]
  | cons a l ih =>
      simp only [List.mapM_cons, bind_eq_ok, pure, Except.pure, Except.ok.injEq, ih,
        List.forall₂_cons_left_iff]
      constructor
      · rintro ⟨b, hb, s, hs, rfl⟩
        exact ⟨b, s, hb, hs, rfl⟩
      · rintro ⟨b, s, hb, hs, rfl⟩
        exact ⟨b, hb, s, hs, rfl⟩

theorem mapM_eq_self {f : α → Except ε α} {l : List α} (fixed : ∀ a ∈ l, f a = .ok a) :
    l.mapM f = .ok l :=
  mapM_eq_ok.2 (List.forall₂_same.2 fixed)

/-- Steps that commute with maps of their ends, one by one, commute in sequence. -/
theorem mapM_map {γ ζ : Type} {f : α → Except ε β} {g : γ → Except ε ζ} {p : α → γ} {q : β → ζ}
    {l : List α} (each : ∀ a ∈ l, (f a).map q = g (p a)) :
    (l.mapM f).map (List.map q) = (l.map p).mapM g := by
  induction l with
  | nil => rfl
  | cons a l ih =>
      obtain ⟨first, rest⟩ := List.forall_mem_cons.1 each
      rw [List.map_cons, List.mapM_cons, List.mapM_cons, ← first, ← ih rest]
      cases f a with
      | error e => rfl
      | ok b => cases l.mapM f <;> rfl

theorem map_of_mapM_eq_ok {γ : Type} {f : α → Except ε α} {p : α → γ}
    (each : ∀ a b, f a = .ok b → p b = p a) {l r : List α} (made : l.mapM f = .ok r) :
    r.map p = l.map p := by
  have steps := mapM_eq_ok.1 made
  clear made
  induction steps with
  | nil => rfl
  | cons step _ ih => rw [List.map_cons, List.map_cons, each _ _ step, ih]

theorem mapM_eq_error {f : α → Except ε β} {l : List α} {e : ε} :
    l.mapM f = .error e ↔
      ∃ before a after, l = before ++ a :: after ∧ (∀ x ∈ before, ∃ b, f x = .ok b) ∧
        f a = .error e := by
  induction l with
  | nil => simp [pure, Except.pure]
  | cons a l ih =>
      rw [List.mapM_cons]
      cases h : f a with
      | error d =>
          simp only [bind, Except.bind, Except.error.injEq]
          constructor
          · rintro rfl
            exact ⟨[], a, l, rfl, by simp, h⟩
          · rintro ⟨before, x, after, split, passed, fails⟩
            cases before with
            | nil =>
                obtain ⟨rfl, -⟩ := List.cons.inj split
                rw [h] at fails
                exact Except.error.inj fails
            | cons y before =>
                obtain ⟨rfl, -⟩ := List.cons.inj split
                obtain ⟨b, hb⟩ := passed a (by simp)
                rw [h] at hb
                cases hb
      | ok b =>
          have step : (do let r ← l.mapM f; pure (b :: r)) = Except.error e ↔
              l.mapM f = .error e := by
            cases l.mapM f <;> simp [bind, Except.bind, pure, Except.pure]
          refine step.trans (ih.trans ⟨?_, ?_⟩)
          · rintro ⟨before, x, after, rfl, passed, fails⟩
            exact ⟨a :: before, x, after, rfl, List.forall_mem_cons.2 ⟨⟨b, h⟩, passed⟩, fails⟩
          · rintro ⟨before, x, after, split, passed, fails⟩
            cases before with
            | nil =>
                obtain ⟨rfl, -⟩ := List.cons.inj split
                rw [h] at fails
                cases fails
            | cons y before =>
                obtain ⟨rfl, rfl⟩ := List.cons.inj split
                exact ⟨before, x, after, rfl, (List.forall_mem_cons.1 passed).2, fails⟩

theorem rel_cases {R : α → β → Prop} {x : Option α} {y : Option β} (h : Option.Rel R x y) :
    (x = none ∧ y = none) ∨ ∃ a b, x = some a ∧ y = some b ∧ R a b := by
  cases h with
  | none => exact .inl ⟨rfl, rfl⟩
  | some related => exact .inr ⟨_, _, rfl, rfl, related⟩

/-- Two searches that find related things, where one finds something whenever the other does. -/
theorem rel_of_found {R : α → β → Prop} {x : Option α} {y : Option β}
    (there : ∀ a, x = some a → ∃ b, y = some b ∧ R a b) (back : ∀ b, y = some b → ∃ a, x = some a) :
    Option.Rel R x y := by
  cases found : x with
  | some a =>
      obtain ⟨b, answered, related⟩ := there a found
      rw [answered]
      exact .some related
  | none =>
      cases found' : y with
      | none => exact .none
      | some b =>
          obtain ⟨a, answered⟩ := back b found'
          rw [found] at answered
          cases answered

theorem rel_find? {R : α → β → Prop} {p : α → Bool} {q : β → Bool} {l : List α} {r : List β}
    (h : List.Forall₂ R l r) (alike : ∀ a b, R a b → p a = q b) :
    Option.Rel R (l.find? p) (r.find? q) := by
  induction h with
  | nil => exact .none
  | @cons a b _ _ related _ ih =>
      rw [List.find?_cons, List.find?_cons, ← alike a b related]
      cases p a with
      | true => exact .some related
      | false => exact ih

theorem rel_findSome? {γ : Type} {R : α → β → Prop} {f : γ → Option α} {g : γ → Option β}
    (each : ∀ c, Option.Rel R (f c) (g c)) (l : List γ) :
    Option.Rel R (l.findSome? f) (l.findSome? g) := by
  induction l with
  | nil => exact .none
  | cons c l ih =>
      rw [List.findSome?_cons, List.findSome?_cons]
      rcases rel_cases (each c) with ⟨left, right⟩ | ⟨a, b, left, right, related⟩
      · rw [left, right]
        exact ih
      · rw [left, right]
        exact .some related

end RecordSchema.Fallible
