import Mathlib.Data.List.Nodup
import RecordSchema.Proofs.Induction

namespace RecordSchema

namespace Members

variable {α β : Type}

theorem lookup_map (f : α → β) (members : List (String × α)) (key : String) :
    (members.map fun m => (m.1, f m.2)).lookup key = (members.lookup key).map f := by
  induction members with
  | nil => rfl
  | cons m r ih =>
      rw [List.map_cons, List.lookup_cons, List.lookup_cons, ih]
      cases key == m.1 <;> rfl

theorem lookup_eq_some_iff {members : List (String × α)} (distinct : (names members).Nodup)
    (key : String) (a : α) : members.lookup key = some a ↔ (key, a) ∈ members := by
  induction members with
  | nil => simp
  | cons m r ih =>
      obtain ⟨k, b⟩ := m
      obtain ⟨fresh, distinct⟩ := List.nodup_cons.1 distinct
      rw [List.lookup_cons]
      by_cases same : key = k
      · subst same
        have absent : (key, a) ∉ r := fun mem => fresh (List.mem_map.2 ⟨_, mem, rfl⟩)
        simp [absent, eq_comm]
      · simp [beq_eq_false_iff_ne.2 same, same, ih distinct]

theorem flatMap_named (f : α → List β) {members : List (String × α)}
    (distinct : (names members).Nodup) (key : String) :
    (members.flatMap fun m => if m.1 = key then f m.2 else []) =
      ((members.lookup key).map f).getD [] := by
  induction members with
  | nil => rfl
  | cons m r ih =>
      obtain ⟨k, a⟩ := m
      obtain ⟨fresh, distinct⟩ := List.nodup_cons.1 distinct
      have rest := ih distinct
      rw [List.flatMap_cons, List.lookup_cons]
      by_cases same : k = key
      · subst same
        have absent : r.lookup k = none := by
          rw [List.lookup_eq_none_iff]
          intro m mem
          have other : k ≠ m.1 := fun named => fresh (named ▸ List.mem_map.2 ⟨m, mem, rfl⟩)
          simpa using other
        rw [absent] at rest
        simp [rest]
      · have other : (key == k) = false := beq_eq_false_iff_ne.2 (Ne.symm same)
        simp [same, other, rest]

end Members

namespace Value

theorem member_sequence (items : List Value) (key : String) :
    (sequence items).member key = ((position? key).bind fun i => items[i]?).getD undefined :=
  rfl

theorem member_mapping (members : Record) (key : String) :
    (mapping members).member key = (members.lookup key).getD undefined :=
  rfl

theorem wellFormed_sequence_iff (items : List Value) :
    (sequence items).WellFormed ↔ ∀ item ∈ items, item.WellFormed := by
  rw [WellFormed]
  induction items with
  | nil => simp [WellFormedItems]
  | cons v r ih => rw [WellFormedItems, ih, List.forall_mem_cons]

theorem wellFormed_mapping_iff (members : Record) :
    (mapping members).WellFormed ↔
      (Members.names members).Nodup ∧ ∀ m ∈ members, m.2.WellFormed := by
  have each : WellFormedMembers members ↔ ∀ m ∈ members, m.2.WellFormed := by
    induction members with
    | nil => simp [WellFormedMembers]
    | cons m r ih => rw [WellFormedMembers, ih, List.forall_mem_cons]
  rw [WellFormed, each]

theorem mem_entriesFrom {items : List Value} {start : Nat} {key : String} {v : Value} :
    (key, v) ∈ entriesFrom start items ↔ ∃ i, items[i]? = some v ∧ key = (start + i).repr := by
  induction items generalizing start with
  | nil => simp [entriesFrom]
  | cons w r ih =>
      rw [entriesFrom, List.mem_cons, ih]
      constructor
      · rintro (first | ⟨i, at_i, rfl⟩)
        · obtain ⟨rfl, rfl⟩ := Prod.mk.inj first
          exact ⟨0, rfl, rfl⟩
        · exact ⟨i + 1, at_i, by rw [Nat.add_right_comm, Nat.add_assoc]⟩
      · rintro ⟨i, at_i, rfl⟩
        cases i with
        | zero =>
            cases at_i
            exact .inl rfl
        | succ i => exact .inr ⟨i, at_i, by rw [Nat.add_right_comm, Nat.add_assoc]⟩

theorem WellFormed.of_mem_entries {v : Value} (h : v.WellFormed) {m : String × Value}
    (mem : m ∈ v.entries) : m.2.WellFormed := by
  cases v with
  | sequence items =>
      obtain ⟨i, at_i, -⟩ := mem_entriesFrom.1 mem
      exact (wellFormed_sequence_iff items).1 h _ (List.mem_of_getElem? at_i)
  | mapping members => exact ((wellFormed_mapping_iff members).1 h).2 m mem
  | _ => cases mem

theorem repr_injective : Function.Injective Nat.repr := by
  intro m n same
  have named : position? m.repr = position? n.repr := by rw [same]
  rw [position?_repr, position?_repr] at named
  exact Option.some.inj named

theorem names_entriesFrom (start : Nat) (items : List Value) :
    Members.names (entriesFrom start items) = (List.range' start items.length).map Nat.repr := by
  induction items generalizing start with
  | nil => rfl
  | cons v r ih => exact congrArg (start.repr :: ·) (ih (start + 1))

theorem WellFormed.nodup_names {v : Value} (h : v.WellFormed) :
    (Members.names v.entries).Nodup := by
  cases v with
  | sequence items =>
      rw [entries, names_entriesFrom]
      exact (List.nodup_map_iff repr_injective).2 List.nodup_range'
  | mapping members => exact ((wellFormed_mapping_iff members).1 h).1
  | _ => exact List.nodup_nil

/-- Access by key finds exactly the listed entries. -/
theorem get?_eq_some_iff {v : Value} (h : v.WellFormed) (key : String) (w : Value) :
    v.get? key = some w ↔ (key, w) ∈ v.entries := by
  cases v with
  | sequence items =>
      rw [get?, entries, mem_entriesFrom, Option.bind_eq_some_iff]
      refine exists_congr fun i => ?_
      rw [and_comm, Nat.zero_add]
      refine and_congr_right fun _ => ⟨fun named => (repr_eq_of_position? named).symm, ?_⟩
      rintro rfl
      exact position?_repr i
  | mapping members => exact Members.lookup_eq_some_iff ((wellFormed_mapping_iff members).1 h).1 key w
  | _ => simp [get?, entries]

theorem get?_eq_lookup_entries {v : Value} (distinct : v.WellFormed) (key : String) :
    v.get? key = v.entries.lookup key := by
  ext w
  rw [get?_eq_some_iff distinct, Members.lookup_eq_some_iff distinct.nodup_names]

theorem member_of_mem_entries {v : Value} (h : v.WellFormed) {m : String × Value}
    (mem : m ∈ v.entries) : v.member m.1 = m.2 := by
  rw [member, (get?_eq_some_iff h m.1 m.2).2 mem, Option.getD_some]

theorem WellFormed.member {v : Value} (h : v.WellFormed) (key : String) :
    (v.member key).WellFormed := by
  unfold Value.member
  cases found : v.get? key with
  | none => exact trivial
  | some w => exact h.of_mem_entries ((get?_eq_some_iff h key w).1 found)

@[elab_as_elim]
theorem induction_entries {motive : Value → Prop}
    (step : ∀ v : Value, (∀ m ∈ v.entries, motive m.2) → motive v) (v : Value) : motive v := by
  induction v using Value.induction with
  | sequence items ih =>
      refine step _ fun m mem => ?_
      obtain ⟨i, at_i, -⟩ := mem_entriesFrom.1 mem
      exact ih _ (List.mem_of_getElem? at_i)
  | mapping members ih => exact step _ ih
  | undefined | null | bool | number | string | function | custom =>
      exact step _ fun m mem => by cases mem

end Value

end RecordSchema
