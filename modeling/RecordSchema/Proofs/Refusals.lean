import RecordSchema.Proofs.Coercion
import RecordSchema.Proofs.Leaves

namespace RecordSchema

namespace Value

variable {errors : List String → ConstructionError → Prop}

structure FirstOf (v : Value) (errors : List String → ConstructionError → Prop)
    (path : List String) (e : ConstructionError) : Prop where
  arises : errors path e
  first : ∀ q d, errors q d → (q = path ∧ d = e) ∨ v.Precedes path q

theorem FirstOf.unique {v : Value} {p q : List String} {e d : ConstructionError}
    (distinct : v.WellFormed) (h : v.FirstOf errors p e) (other : v.FirstOf errors q d) : e = d := by
  rcases h.first q d other.arises with ⟨-, same⟩ | before
  · exact same.symm
  · rcases other.first p e h.arises with ⟨-, same⟩ | after
    · exact same
    · exact absurd after (before.asymm distinct)

variable {β γ : Type}

def Reports (v : Value) (errors : List String → ConstructionError → Prop) :
    Except ConstructionError β → Prop
  | .ok _ => ∀ path e, ¬ errors path e
  | .error e => ∃ path, v.FirstOf errors path e

theorem Reports.map {v : Value} {x : Except ConstructionError β} (h : v.Reports errors x)
    (f : β → γ) : v.Reports errors (x.map f) := by
  cases x <;> exact h

theorem Reports.of_iff {v : Value} {others : List String → ConstructionError → Prop}
    {x : Except ConstructionError β} (h : v.Reports errors x)
    (same : ∀ path e, others path e ↔ errors path e) : v.Reports others x := by
  have equal : others = errors := by
    funext path e
    exact propext (same path e)
  rwa [equal]

theorem Reports.exists_error_iff {v : Value} {x : Except ConstructionError β}
    (h : v.Reports errors x) : (∃ e, x = .error e) ↔ ∃ path e, errors path e := by
  cases x with
  | ok b =>
      refine iff_of_false (by simp) ?_
      rintro ⟨path, e, error⟩
      exact h path e error
  | error e =>
      obtain ⟨path, first⟩ := h
      exact iff_of_true ⟨e, rfl⟩ ⟨path, e, first.arises⟩

theorem Reports.eq_error_iff {v : Value} {x : Except ConstructionError β} (h : v.Reports errors x)
    (distinct : v.WellFormed) (e : ConstructionError) :
    x = .error e ↔ ∃ path, v.FirstOf errors path e := by
  cases x with
  | ok b =>
      refine iff_of_false (by simp) ?_
      rintro ⟨path, first⟩
      exact h path e first.arises
  | error d =>
      obtain ⟨path, first⟩ := h
      constructor
      · intro same
        obtain rfl := Except.error.inj same
        exact ⟨path, first⟩
      · rintro ⟨other, first'⟩
        rw [first.unique distinct first']

/-- A walk over the members of a value stops at the first member with an error. -/
theorem reports_mapM {v : Value} {step : String × Value → Except ConstructionError β}
    {within : String × Value → List String → ConstructionError → Prop}
    (each : ∀ m ∈ v.entries, m.2.Reports (within m) (step m)) :
    v.Reports (fun path e => ∃ m ∈ v.entries, ∃ rest, path = m.1 :: rest ∧ within m rest e)
      (v.entries.mapM step) := by
  have none_of_ok {m : String × Value} (mem : m ∈ v.entries) (made : ∃ b, step m = .ok b)
      (path : List String) (e : ConstructionError) : ¬ within m path e := by
    have reports := each m mem
    obtain ⟨b, made⟩ := made
    rw [made] at reports
    exact reports path e
  cases whole : v.entries.mapM step with
  | ok made =>
      rintro _ e ⟨m, mem, rest, -, error⟩
      have steps := Fallible.mapM_eq_ok.1 whole
      obtain ⟨b, -, made⟩ := Fallible.forall₂_exists_left steps.flip mem
      exact none_of_ok mem ⟨b, made⟩ rest e error
  | error e =>
      obtain ⟨before, m, after, split, passed, fails⟩ := Fallible.mapM_eq_error.1 whole
      have mem : m ∈ v.entries := by simp [split]
      have reports := each m mem
      rw [fails] at reports
      obtain ⟨path, first⟩ := reports
      refine ⟨m.1 :: path, ⟨m, mem, path, rfl, first.arises⟩, ?_⟩
      rintro _ d ⟨n, listed, rest, rfl, error⟩
      have place := listed
      rw [split, List.mem_append, List.mem_cons] at place
      -- Members before the failing one have no errors, and those after it come later in the walk.
      rcases place with earlier | rfl | later
      · exact absurd error (none_of_ok listed (passed n earlier) rest d)
      · rcases first.first rest d error with ⟨rfl, same⟩ | within
        · exact .inl ⟨rfl, same⟩
        · exact .inr (.deeper listed within)
      · refine .inr (.part ?_)
        rw [split, Members.names, List.map_append]
        refine List.sublist_append_of_sublist_right (.cons_cons m.1 ?_)
        exact List.singleton_sublist.2 (List.mem_map_of_mem later)

end Value

mutual

/-- A custom type has the value at the end of a path to construct from. The path leads through
mappings that schemas are nested for, and through sequences of such mappings. -/
inductive FieldType.Governs : FieldType → Value → List String → CustomType → Value → Prop
  | custom (c : CustomType) (v : Value) : FieldType.Governs (.custom c) v [] c v
  | mapping {schema : Schema} {members : Record} {path : List String} {c : CustomType} {v : Value}
      (h : Schema.Governs schema (.mapping members) path c v) :
      FieldType.Governs (.nested schema) (.mapping members) path c v
  | item {schema : Schema} {items : List Value} {m : String × Value} {path : List String}
      {c : CustomType} {v : Value} (mem : m ∈ (Value.sequence items).entries)
      (h : Schema.Governs schema m.2 path c v) :
      FieldType.Governs (.nested schema) (.sequence items) (m.1 :: path) c v

inductive Schema.Governs : Schema → Value → List String → CustomType → Value → Prop
  | member {schema : Schema} {members : Record} {m : String × Value} {field : Field}
      {path : List String} {c : CustomType} {v : Value} (mem : m ∈ members)
      (declared : field ∈ schema) (named : field.1.name = m.1)
      (h : FieldType.Governs field.2 m.2 path c v) :
      Schema.Governs schema (.mapping members) (m.1 :: path) c v

end

def FieldType.Refuses (type : FieldType) (v : Value) (path : List String)
    (e : ConstructionError) : Prop :=
  ∃ c w, type.Governs v path c w ∧ w.isNullish = false ∧ c.construct w = .error e

def Schema.Refuses (schema : Schema) (v : Value) (path : List String)
    (e : ConstructionError) : Prop :=
  ∃ c w, schema.Governs v path c w ∧ w.isNullish = false ∧ c.construct w = .error e

namespace Schema

theorem refuses_mapping_iff (schema : Schema) (members : Record) (path : List String)
    (e : ConstructionError) : schema.Refuses (.mapping members) path e ↔
      ∃ m ∈ members, ∃ rest, path = m.1 :: rest ∧
        ∃ field ∈ schema, field.1.name = m.1 ∧ field.2.Refuses m.2 rest e := by
  constructor
  · rintro ⟨c, v, governs, present, refused⟩
    cases governs with
    | member mem declared named h =>
        exact ⟨_, mem, _, rfl, _, declared, named, c, v, h, present, refused⟩
  · rintro ⟨m, mem, rest, rfl, field, declared, named, c, v, h, present, refused⟩
    exact ⟨c, v, .member mem declared named h, present, refused⟩

theorem not_refuses_of_not_mapping (schema : Schema) {v : Value}
    (h : ∀ members, v ≠ .mapping members) (path : List String) (e : ConstructionError) :
    ¬ schema.Refuses v path e := by
  rintro ⟨c, w, governs, -⟩
  cases governs with
  | member => exact h _ rfl

end Schema

namespace FieldType

theorem refuses_mapping_iff (schema : Schema) (members : Record) (path : List String)
    (e : ConstructionError) : (nested schema).Refuses (.mapping members) path e ↔
      schema.Refuses (.mapping members) path e := by
  constructor
  · rintro ⟨c, v, governs, present, refused⟩
    cases governs with
    | mapping h => exact ⟨c, v, h, present, refused⟩
  · rintro ⟨c, v, h, present, refused⟩
    exact ⟨c, v, .mapping h, present, refused⟩

theorem refuses_sequence_iff (schema : Schema) (items : List Value) (path : List String)
    (e : ConstructionError) : (nested schema).Refuses (.sequence items) path e ↔
      ∃ m ∈ (Value.sequence items).entries, ∃ rest, path = m.1 :: rest ∧
        schema.Refuses m.2 rest e := by
  constructor
  · rintro ⟨c, v, governs, present, refused⟩
    cases governs with
    | item mem h => exact ⟨_, mem, _, rfl, c, v, h, present, refused⟩
  · rintro ⟨m, mem, rest, rfl, c, v, h, present, refused⟩
    exact ⟨c, v, .item mem h, present, refused⟩

theorem refuses_custom_iff (c : CustomType) (v : Value) (path : List String)
    (e : ConstructionError) : (custom c).Refuses v path e ↔
      path = [] ∧ v.isNullish = false ∧ c.construct v = .error e := by
  constructor
  · rintro ⟨d, w, governs, present, refused⟩
    cases governs
    exact ⟨rfl, present, refused⟩
  · rintro ⟨rfl, present, refused⟩
    exact ⟨c, v, .custom c v, present, refused⟩

end FieldType

namespace Schema

variable {schema : Schema} (distinct : schema.names.Nodup)
  (each : ∀ field ∈ schema, ∀ v : Value, v.Reports (field.2.Refuses v) (field.2.coerce v))

include distinct each

theorem reports_coerceMember (m : String × Value) :
    m.2.Reports (fun path e => ∃ field ∈ schema, field.1.name = m.1 ∧ field.2.Refuses m.2 path e)
      (schema.coerceMember m) := by
  rw [coerceMember]
  cases found : schema.field? m.1 with
  | none =>
      rintro path e ⟨field, declared, named, -⟩
      rw [← named, field?_of_mem distinct declared] at found
      cases found
  | some field =>
      refine (each field (mem_of_field? found) m.2).of_iff fun path e => ?_
      constructor
      · rintro ⟨other, declared, named, refused⟩
        rw [← named, field?_of_mem distinct declared] at found
        rwa [← Option.some.inj found]
      · exact fun refused => ⟨field, mem_of_field? found, name_of_field? found, refused⟩

theorem reports_coerce_of_fields (v : Value) : v.Reports (schema.Refuses v) (schema.coerce v) := by
  cases v with
  | mapping members =>
      have walk := Value.reports_mapM (v := .mapping members) fun m _ =>
        (reports_coerceMember distinct each m).map fun w => (m.1, w)
      have made : schema.coerce (.mapping members) =
          (FieldType.coerceMembers schema members).map Value.mapping := rfl
      rw [made, coerceMembers_eq_mapM]
      exact (walk.of_iff (schema.refuses_mapping_iff members)).map Value.mapping
  | _ => exact schema.not_refuses_of_not_mapping (by simp)

end Schema

theorem Value.mapM_entriesFrom {ε β : Type} (f : Value → Except ε β) (start : Nat)
    (items : List Value) : (entriesFrom start items).mapM (fun m => f m.2) = items.mapM f := by
  induction items generalizing start with
  | nil => rfl
  | cons v r ih => rw [entriesFrom, List.mapM_cons, List.mapM_cons, ih]

/-- Coercion to a type fails with the first refusal inside the value. -/
theorem FieldType.reports_coerce {type : FieldType} (wellFormed : type.WellFormed) (v : Value) :
    v.Reports (type.Refuses v) (type.coerce v) := by
  -- The induction is on the type: a value is entered only as far as schemas are nested.
  induction type using FieldType.induction generalizing v with
  | primitive p | union u =>
      rw [coerce_of_not_nested (by simp)]
      split <;> (rintro path e ⟨c, w, governs, -⟩; cases governs)
  | custom c =>
      refine Value.Reports.of_iff ?_ (refuses_custom_iff c v)
      rw [coerce_of_not_nested (by simp)]
      cases present : v.isNullish with
      | true =>
          rintro path e ⟨-, there, -⟩
          cases there
      | false =>
          refine Value.Reports.map ?_ Instance.primitive
          cases c.construct v with
          | ok i =>
              rintro path e ⟨-, -, refused⟩
              cases refused
          | error e =>
              refine ⟨[], ⟨rfl, rfl, rfl⟩, ?_⟩
              rintro q d ⟨rfl, -, refused⟩
              exact .inl ⟨rfl, (Except.error.inj refused).symm⟩
  | nested schema ih =>
      cases wellFormed with
      | nested distinct fields =>
          have records := Schema.reports_coerce_of_fields distinct fun field mem =>
            ih field mem (fields field mem)
          cases v with
          | mapping members =>
              rw [coerce_nested_of_not_sequence schema (by simp)]
              exact (records (.mapping members)).of_iff (refuses_mapping_iff schema members)
          | sequence items =>
              rw [coerce_nested_sequence, ← Value.mapM_entriesFrom schema.coerce 0]
              have walk := Value.reports_mapM (v := .sequence items) fun m _ => records m.2
              exact (walk.of_iff (refuses_sequence_iff schema items)).map Value.sequence
          | _ =>
              rintro path e ⟨c, w, governs, -⟩
              cases governs

end RecordSchema
