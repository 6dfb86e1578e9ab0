import RecordSchema.Proofs.UpToOrder
import RecordSchema.Value.Equality

namespace RecordSchema

namespace Number

theorem signed_cases {s t : Bool} {m n : Nat} (h : signed s m = signed t n) :
    m = n ∧ (m = 0 ∨ s = t) := by
  cases s with
  | false =>
      cases t with
      | false =>
          have value : (m : Int) = n := h
          exact ⟨by omega, .inr rfl⟩
      | true =>
          have value : (m : Int) = -n := h
          exact ⟨by omega, .inl (by omega)⟩
  | true =>
      cases t with
      | false =>
          have value : -(m : Int) = n := h
          exact ⟨by omega, .inl (by omega)⟩
      | true =>
          have value : -(m : Int) = -n := h
          exact ⟨by omega, .inr rfl⟩

theorem same_cases {m n : Number} (h : m.same n = true) :
    m = n ∨ ∃ s t, m = zero s ∧ n = zero t := by
  cases m with
  | nan => cases h
  | infinite s =>
      cases n with
      | infinite t => exact .inl (congrArg infinite (eq_of_beq h))
      | _ => cases h
  | finite s units fits =>
      cases n with
      | finite t units' fits' =>
          obtain ⟨rfl, rfl | rfl⟩ := signed_cases (eq_of_beq h)
          · exact .inr ⟨s, t, rfl, rfl⟩
          · exact .inl rfl
      | _ => cases h

theorem same_comm (m n : Number) : m.same n = n.same m := by
  cases m <;> cases n <;> first | rfl | exact Bool.beq_comm

theorem same_self {n : Number} (h : n ≠ .nan) : n.same n = true := by
  cases n with
  | nan => exact absurd rfl h
  | infinite | finite => exact beq_self_eq_true _

/-- Equal numbers, where NaN is equal to itself. -/
def Alike (m n : Number) : Prop :=
  m.same n = true ∨ m = .nan ∧ n = .nan

namespace Alike

variable {m n : Number}

theorem refl (n : Number) : n.Alike n := by
  by_cases nan : n = .nan
  · exact .inr ⟨nan, nan⟩
  · exact .inl (same_self nan)

theorem symm (h : m.Alike n) : n.Alike m := by
  rcases h with same | ⟨nan, nan'⟩
  · exact .inl (same_comm m n ▸ same)
  · exact .inr ⟨nan', nan⟩

theorem cases (h : m.Alike n) : m = n ∨ ∃ s t, m = zero s ∧ n = zero t := by
  rcases h with same | ⟨rfl, rfl⟩
  · exact same_cases same
  · exact .inl rfl

theorem same_eq (h : m.Alike n) (other : Number) : m.same other = n.same other := by
  rcases h.cases with rfl | ⟨s, t, rfl, rfl⟩
  · rfl
  · cases other <;> cases s <;> cases t <;> rfl

end Alike

end Number

namespace Value

/-- Values that differ in the order of members and in numbers that `r` relates. -/
inductive EqualBy (r : Number → Number → Prop) : Value → Value → Prop
  | undefined : EqualBy r .undefined .undefined
  | null : EqualBy r .null .null
  | bool (b : Bool) : EqualBy r (.bool b) (.bool b)
  | number {m n : Number} (h : r m n) : EqualBy r (.number m) (.number n)
  | string (s : String) : EqualBy r (.string s) (.string s)
  | sequence {xs ys : List Value} (each : List.Forall₂ (EqualBy r) xs ys) :
      EqualBy r (.sequence xs) (.sequence ys)
  | mapping {xs middle ys : Record} (each : List.Forall₂ (Keyed (EqualBy r)) xs middle)
      (order : middle.Perm ys) : EqualBy r (.mapping xs) (.mapping ys)
  | function (id : Nat) : EqualBy r (.function id) (.function id)
  | custom (typeName : String) {v w : Value} (h : EqualBy r v w) :
      EqualBy r (.custom typeName v) (.custom typeName w)

variable {r s : Number → Number → Prop} {a b : Value}

theorem equalBy_sequence_iff (xs ys : List Value) :
    (sequence xs).EqualBy r (.sequence ys) ↔ List.Forall₂ (EqualBy r) xs ys :=
  ⟨fun | .sequence each => each, .sequence⟩

theorem equalBy_mapping_iff (xs ys : Record) :
    (mapping xs).EqualBy r (.mapping ys) ↔ UpToOrder (Keyed (EqualBy r)) xs ys :=
  ⟨fun | .mapping each order => ⟨_, each, order⟩, fun ⟨_, each, order⟩ => .mapping each order⟩

namespace EqualBy

theorem symm (back : ∀ m n, r m n → s n m) (h : a.EqualBy r b) : b.EqualBy s a := by
  induction a using Value.induction generalizing b with
  | undefined | null | bool | string | function => cases h; constructor
  | number n =>
      cases h with
      | number h => exact .number (back _ _ h)
  | sequence items ih =>
      cases h with
      | sequence each =>
          refine .sequence (List.Forall₂.flip ((Fallible.forall₂_with_mem each).imp ?_))
          exact fun x y ⟨mem, _, h⟩ => ih x mem h
  | mapping members ih =>
      cases h with
      | @mapping _ middle others each order =>
          have paired : UpToOrder (Keyed (EqualBy r)) members others := ⟨middle, each, order⟩
          have back : UpToOrder (fun m n => Keyed (EqualBy s) n m) members others := by
            refine paired.with_mem.imp ?_
            rintro m n ⟨mem, -, ⟨key, h⟩⟩
            exact .intro key (ih _ mem h)
          exact (equalBy_mapping_iff _ _).2 back.flip
  | custom typeName v ih =>
      cases h with
      | custom _ h => exact .custom typeName (ih h)

theorem imp (weaker : ∀ m n, r m n → s m n) (h : a.EqualBy r b) : a.EqualBy s b := by
  have back : b.EqualBy (fun n m => r m n) a := h.symm fun _ _ related => related
  exact back.symm fun n m => weaker m n

theorem wellFormed (h : a.EqualBy r b) (distinct : a.WellFormed) : b.WellFormed := by
  induction a using Value.induction generalizing b with
  | undefined | null | bool | number | string | function =>
      cases h
      trivial
  | sequence items ih =>
      cases h with
      | sequence each =>
          rw [wellFormed_sequence_iff] at distinct ⊢
          intro y from_ys
          obtain ⟨x, from_xs, related⟩ := Fallible.forall₂_exists_left each from_ys
          exact ih x from_xs related (distinct x from_xs)
  | mapping members ih =>
      cases h with
      | mapping each order =>
          have paired : UpToOrder (Keyed (EqualBy r)) members _ := ⟨_, each, order⟩
          rw [wellFormed_mapping_iff] at distinct ⊢
          refine ⟨(Members.names_perm paired).nodup_iff.1 distinct.1, fun n from_n => ?_⟩
          obtain ⟨m, from_m, related⟩ := paired.exists_left from_n
          exact ih m from_m related.content (distinct.2 m from_m)
  | custom typeName v ih =>
      cases h with
      | custom _ h =>
          rw [WellFormed] at distinct ⊢
          exact ih h distinct

theorem isContainer_eq (h : a.EqualBy r b) : a.isContainer = b.isContainer := by
  cases h <;> rfl

theorem isMapping_eq (h : a.EqualBy r b) : a.isMapping = b.isMapping := by
  cases h <;> rfl

theorem isNullish_eq (h : a.EqualBy r b) : a.isNullish = b.isNullish := by
  cases h <;> rfl

end EqualBy

theorem forall₂_entriesFrom {R : Value → Value → Prop} {xs ys : List Value}
    (each : List.Forall₂ R xs ys) (start : Nat) :
    List.Forall₂ (Keyed R) (entriesFrom start xs) (entriesFrom start ys) := by
  induction each generalizing start with
  | nil => exact .nil
  | cons first _ ih => exact .cons (.intro _ first) (ih (start + 1))

namespace EqualBy

/-- Members of mappings and items of sequences alike. -/
theorem entries (h : a.EqualBy r b) : UpToOrder (Keyed (EqualBy r)) a.entries b.entries := by
  cases h with
  | sequence each => exact .of_forall₂ (forall₂_entriesFrom each 0)
  | mapping each order => exact ⟨_, each, order⟩
  | undefined | null | bool | number | string | function | custom => exact .of_forall₂ .nil

theorem member (h : a.EqualBy r b) (distinct : a.WellFormed) (distinct' : b.WellFormed)
    (key : String) : (a.member key).EqualBy r (b.member key) := by
  rw [Value.member, Value.member, get?_eq_lookup_entries distinct,
    get?_eq_lookup_entries distinct']
  rcases Fallible.rel_cases (Members.rel_lookup distinct.nodup_names h.entries key) with
    ⟨left, right⟩ | ⟨v, w, left, right, related⟩
  · rw [left, right]
    exact .undefined
  · rw [left, right]
    exact related

end EqualBy

theorem sameItems_iff (xs ys : List Value) :
    sameItems xs ys = true ↔ List.Forall₂ (fun x y => x.same y = true) xs ys := by
  induction xs generalizing ys with
  | nil => cases ys <;> simp [sameItems]
  | cons x xs ih => cases ys <;> simp [sameItems, ih]

theorem sameMembers_iff (xs ys : Record) :
    sameMembers xs ys = true ↔ ∀ m ∈ xs, ∃ y, ys.lookup m.1 = some y ∧ m.2.same y = true := by
  induction xs with
  | nil => simp [sameMembers]
  | cons m xs ih =>
      rw [sameMembers, Bool.and_eq_true, ih, List.forall_mem_cons]
      cases ys.lookup m.1 <;> simp

abbrev Equal : Value → Value → Prop :=
  EqualBy fun m n => m.same n = true

theorem Equal.symm (h : a.Equal b) : b.Equal a :=
  EqualBy.symm (fun m n same => Number.same_comm m n ▸ same) h

theorem same_sequence_iff_of_items {xs ys : List Value}
    (each : ∀ x ∈ xs, ∀ y ∈ ys, x.same y = true ↔ x.Equal y) :
    (sequence xs).same (.sequence ys) = true ↔ (sequence xs).Equal (.sequence ys) := by
  rw [Equal, same, sameItems_iff, equalBy_sequence_iff]
  exact Fallible.forall₂_congr each

theorem same_mapping_iff_of_members {xs ys : Record} (distinct : (Members.names xs).Nodup)
    (distinct' : (Members.names ys).Nodup)
    (each : ∀ m ∈ xs, ∀ n ∈ ys, m.2.same n.2 = true ↔ m.2.Equal n.2) :
    (mapping xs).same (.mapping ys) = true ↔ (mapping xs).Equal (.mapping ys) := by
  -- The comparison looks up each name, which pairs the members since names are distinct.
  rw [Equal, equalBy_mapping_iff, same, Bool.and_eq_true, beq_iff_eq, sameMembers_iff,
    Members.upToOrder_iff distinct distinct']
  refine and_congr_right fun _ => forall₂_congr fun m from_m => exists_congr fun y => ?_
  refine and_congr_right fun found => ?_
  exact each m from_m (m.1, y) ((Members.lookup_eq_some_iff distinct' m.1 y).1 found)

/-- The comparison of values decides their equality. -/
theorem same_iff (distinct : a.WellFormed) (distinct' : b.WellFormed) :
    a.same b = true ↔ a.Equal b := by
  induction a using Value.induction generalizing b with
  | sequence xs ih =>
      cases b with
      | sequence ys =>
          rw [wellFormed_sequence_iff] at distinct distinct'
          exact same_sequence_iff_of_items fun x from_x y from_y =>
            ih x from_x (distinct x from_x) (distinct' y from_y)
      | _ => exact iff_of_false (by simp [same]) (fun h => by cases h)
  | mapping xs ih =>
      cases b with
      | mapping ys =>
          rw [wellFormed_mapping_iff] at distinct distinct'
          exact same_mapping_iff_of_members distinct.1 distinct'.1 fun m from_m n from_n =>
            ih m from_m (distinct.2 m from_m) (distinct'.2 n from_n)
      | _ => exact iff_of_false (by simp [same]) (fun h => by cases h)
  | custom typeName v ih =>
      cases b with
      | custom other w =>
          have inner : v.same w = true ↔ v.Equal w := ih distinct distinct'
          rw [same, Bool.and_eq_true, beq_iff_eq, inner]
          constructor
          · rintro ⟨rfl, h⟩
            exact .custom typeName h
          · intro h
            cases h with
            | custom _ h => exact ⟨rfl, h⟩
      | _ => exact iff_of_false (by simp [same]) (fun h => by cases h)
  | number n =>
      cases b with
      | number n' =>
          rw [same]
          constructor
          · exact fun h => .number h
          · exact fun | .number h => h
      | _ => exact iff_of_false (by simp [same]) (fun h => by cases h)
  | undefined | null =>
      constructor
      · intro h
        cases b <;> cases h
        constructor
      · intro h
        cases h
        rfl
  | bool | string | function =>
      constructor
      · intro h
        cases b <;> simp only [same, beq_iff_eq, Bool.false_eq_true] at h
        subst h
        constructor
      · intro h
        cases h
        simp [same]

end Value

end RecordSchema
