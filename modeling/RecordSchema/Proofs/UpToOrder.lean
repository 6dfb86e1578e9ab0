import Mathlib.Data.List.Perm.Basic
import RecordSchema.Proofs.Fallible
import RecordSchema.Proofs.Membership

namespace RecordSchema

def UpToOrder {α β : Type} (R : α → β → Prop) (l : List α) (r : List β) : Prop :=
  ∃ middle, List.Forall₂ R l middle ∧ middle.Perm r

namespace UpToOrder

variable {α β γ δ : Type} {R : α → β → Prop} {S : γ → δ → Prop} {l : List α} {r : List β}

theorem of_forall₂ (each : List.Forall₂ R l r) : UpToOrder R l r :=
  ⟨r, each, .refl r⟩

theorem length_eq (h : UpToOrder R l r) : l.length = r.length := by
  obtain ⟨middle, each, order⟩ := h
  exact each.length_eq.trans order.length_eq

theorem with_mem (h : UpToOrder R l r) : UpToOrder (fun a b => a ∈ l ∧ b ∈ r ∧ R a b) l r := by
  obtain ⟨middle, each, order⟩ := h
  refine ⟨middle, (Fallible.forall₂_with_mem each).imp ?_, order⟩
  rintro a b ⟨from_l, from_middle, related⟩
  exact ⟨from_l, order.subset from_middle, related⟩

theorem exists_left (h : UpToOrder R l r) {b : β} (mem : b ∈ r) : ∃ a ∈ l, R a b := by
  obtain ⟨middle, each, order⟩ := h
  exact Fallible.forall₂_exists_left each (order.mem_iff.2 mem)

theorem imp {R' : α → β → Prop} (weaker : ∀ a b, R a b → R' a b) (h : UpToOrder R l r) :
    UpToOrder R' l r := by
  obtain ⟨middle, each, order⟩ := h
  exact ⟨middle, each.imp weaker, order⟩

theorem flip (h : UpToOrder R l r) : UpToOrder (fun b a => R a b) r l := by
  obtain ⟨middle, each, order⟩ := h
  exact List.perm_comp_forall₂ order.symm each.flip

theorem exists_right (h : UpToOrder R l r) {a : α} (mem : a ∈ l) : ∃ b ∈ r, R a b :=
  h.flip.exists_left mem

theorem comp {S : β → γ → Prop} {T : α → γ → Prop} {n : List γ}
    (compose : ∀ a ∈ l, ∀ b c, R a b → S b c → T a c) (h : UpToOrder R l r)
    (h' : UpToOrder S r n) : UpToOrder T l n := by
  obtain ⟨middle, each, order⟩ := h
  obtain ⟨middle', each', order'⟩ := h'
  -- The second pairs are put in the order in which the first ones stand.
  obtain ⟨last, taken, permuted⟩ := List.perm_comp_forall₂ order each'
  have chained := Fallible.exists_forall₂_comp_iff.1 ⟨_, Fallible.forall₂_with_mem each, taken⟩
  refine ⟨last, chained.imp ?_, permuted.trans order'⟩
  rintro a c ⟨b, ⟨from_l, -, first⟩, second⟩
  exact compose a from_l b c first second

theorem map {f : α → γ} {g : β → δ} (each : ∀ a b, R a b → S (f a) (g b))
    (h : UpToOrder R l r) : UpToOrder S (l.map f) (r.map g) := by
  obtain ⟨middle, related, order⟩ := h
  refine ⟨middle.map g, ?_, order.map g⟩
  exact List.forall₂_map_left_iff.2 (List.forall₂_map_right_iff.2 (related.imp each))

theorem append {l' : List α} {r' : List β} (h : UpToOrder R l r) (h' : UpToOrder R l' r') :
    UpToOrder R (l ++ l') (r ++ r') := by
  obtain ⟨middle, each, order⟩ := h
  obtain ⟨middle', each', order'⟩ := h'
  exact ⟨middle ++ middle', List.rel_append each each', order.append order'⟩

theorem flatMap {f : α → List γ} {g : β → List δ} (each : ∀ a b, R a b → UpToOrder S (f a) (g b))
    (h : UpToOrder R l r) : UpToOrder S (l.flatMap f) (r.flatMap g) := by
  obtain ⟨middle, related, order⟩ := h
  have pointwise : UpToOrder S (l.flatMap f) (middle.flatMap g) := by
    clear order
    induction related with
    | nil => exact of_forall₂ .nil
    | cons first _ ih => exact (each _ _ first).append ih
  obtain ⟨inner, made, permuted⟩ := pointwise
  exact ⟨inner, made, permuted.trans (order.flatMap_right g)⟩

/-- Items that agree on what is taken of them. -/
theorem map_perm {f : α → γ} {g : β → γ} (each : ∀ a b, R a b → f a = g b)
    (h : UpToOrder R l r) : (l.map f).Perm (r.map g) := by
  obtain ⟨middle, related, order⟩ := h
  rw [Fallible.map_eq_of_forall₂ related fun a _ => each a]
  exact order.map g

theorem exists_steps {C : α → γ → Prop} {D : β → δ → Prop} {made : List γ}
    (step : ∀ a b c, R a b → C a c → ∃ d, D b d ∧ S c d) (h : UpToOrder R l r)
    (steps : List.Forall₂ C l made) : ∃ other, List.Forall₂ D r other ∧ UpToOrder S made other := by
  obtain ⟨middle, each, order⟩ := h
  obtain ⟨answers, answered, alike⟩ := Fallible.forall₂_steps step each steps
  obtain ⟨other, taken, permuted⟩ := List.perm_comp_forall₂ order.symm answered
  exact ⟨other, taken, answers, alike, permuted.symm⟩

end UpToOrder

inductive Keyed {κ α β : Type} (R : α → β → Prop) : κ × α → κ × β → Prop
  | intro (key : κ) {a : α} {b : β} (h : R a b) : Keyed R (key, a) (key, b)

namespace Keyed

variable {κ α β : Type} {R : α → β → Prop} {m : κ × α} {n : κ × β}

theorem key (h : Keyed R m n) : m.1 = n.1 := by
  cases h
  rfl

theorem content (h : Keyed R m n) : R m.2 n.2 := by
  cases h
  assumption

end Keyed

namespace Members

variable {α β : Type} {R : α → β → Prop} {xs : List (String × α)} {ys : List (String × β)}

theorem names_perm (h : UpToOrder (Keyed R) xs ys) : (names xs).Perm (names ys) :=
  h.map_perm fun _ _ same => same.key

theorem rel_lookup (distinct : (names xs).Nodup) (h : UpToOrder (Keyed R) xs ys) (key : String) :
    Option.Rel R (xs.lookup key) (ys.lookup key) := by
  have distinct' : (names ys).Nodup := (names_perm h).nodup_iff.1 distinct
  refine Fallible.rel_of_found (fun a found => ?_) fun b found => ?_
  · obtain ⟨n, mem, same⟩ := h.exists_right ((lookup_eq_some_iff distinct key a).1 found)
    cases same with
    | intro _ related => exact ⟨_, (lookup_eq_some_iff distinct' key _).2 mem, related⟩
  · obtain ⟨m, mem, same⟩ := h.exists_left ((lookup_eq_some_iff distinct' key b).1 found)
    cases same with
    | intro _ related => exact ⟨_, (lookup_eq_some_iff distinct key _).2 mem⟩

/-- One list holds the other's members, and is as long, exactly if it is the other up to order. -/
theorem upToOrder_iff (distinct : (names xs).Nodup) (distinct' : (names ys).Nodup) :
    UpToOrder (Keyed R) xs ys ↔
      xs.length = ys.length ∧ ∀ m ∈ xs, ∃ b, ys.lookup m.1 = some b ∧ R m.2 b := by
  constructor
  · intro h
    refine ⟨h.length_eq, fun m mem => ?_⟩
    obtain ⟨n, from_n, same⟩ := h.exists_right mem
    cases same with
    | intro key related => exact ⟨_, (lookup_eq_some_iff distinct' key _).2 from_n, related⟩
  · rintro ⟨length, each⟩
    have partner (m : String × α) (mem : m ∈ xs) : ∃ n, Keyed R m n ∧ n ∈ ys := by
      obtain ⟨b, found, related⟩ := each m mem
      exact ⟨(m.1, b), .intro m.1 related, (lookup_eq_some_iff distinct' m.1 b).1 found⟩
    obtain ⟨middle, pairs, inside⟩ := Fallible.exists_forall₂_iff.2 partner
    -- The partners have distinct names and are as many as there are, so they are all.
    have distinct_middle := (names_perm (.of_forall₂ pairs)).nodup_iff.1 distinct
    have fresh : middle.Nodup := List.Nodup.of_map Prod.fst distinct_middle
    have sub : middle.Subperm ys := List.subperm_of_subset fresh inside
    refine ⟨middle, pairs, sub.perm_of_length_le ?_⟩
    exact Nat.le_of_eq (length.symm.trans pairs.length_eq)

end Members

end RecordSchema
