import RecordSchema.Proofs.FixedPoint

namespace RecordSchema

mutual

/-- Coercion makes of the value what the field is content with. -/
inductive Field.Convertible : Field → Value → Prop
  | absent {key : FieldKey} {type : FieldType} {v : Value} (optional : key.optionality ≠ .required)
      (nullish : v = .undefined ∨ v = .null) : Field.Convertible (key, type) v
  | nullish {key : FieldKey} {type : FieldType} {v : Value} (nullish : v = .undefined ∨ v = .null)
      (h : type.Admits v) : Field.Convertible (key, type) v
  | boolean {key : FieldKey} {v : Value} (present : v.isNullish = false) :
      Field.Convertible (key, .primitive .boolean) v
  | array {key : FieldKey} {v : Value} (present : v.isNullish = false) :
      Field.Convertible (key, .primitive .array) v
  | number {key : FieldKey} {v : Value} (present : v.isNullish = false) (h : v.toNumber ≠ .nan) :
      Field.Convertible (key, .primitive .number) v
  | string {key : FieldKey} {v : Value} (present : v.isNullish = false) (h : v.toText ≠ "") :
      Field.Convertible (key, .primitive .string) v
  | object {key : FieldKey} (members : Record) :
      Field.Convertible (key, .primitive .object) (.mapping members)
  | function {key : FieldKey} (id : Nat) :
      Field.Convertible (key, .primitive .function) (.function id)
  | satisfied {key : FieldKey} {u : TypeUnion} {v : Value} (present : v.isNullish = false)
      {name : TypeName} (mem : name ∈ u.members) (h : name.Admits v) :
      Field.Convertible (key, .union u) v
  | converted {key : FieldKey} {u : TypeUnion} {v : Value} (present : v.isNullish = false)
      {name : TypeName} (mem : name ∈ u.members)
      (h : name = .string ∨ name = .number ∨ name = .boolean) :
      Field.Convertible (key, .union u) v
  | constructed {key : FieldKey} {c : CustomType} {v : Value} (present : v.isNullish = false)
      {i : Instance} (made : c.construct v = .ok i)
      (h : c.accepts i.primitive = true ∨
        (key.optionality ≠ .required ∧ (i.primitive = .undefined ∨ i.primitive = .null))) :
      Field.Convertible (key, .custom c) v
  | mapping {key : FieldKey} {schema : Schema} {members : Record}
      (h : Schema.Convertible schema (.mapping members)) :
      Field.Convertible (key, .nested schema) (.mapping members)
  | sequence {key : FieldKey} {schema : Schema} {items : List Value}
      (mappings : ∀ item ∈ items, ∃ members, item = .mapping members)
      (each : ∀ item ∈ items, Schema.Convertible schema item) :
      Field.Convertible (key, .nested schema) (.sequence items)

inductive Schema.Convertible : Schema → Value → Prop
  | intro {schema : Schema} {record : Value}
      (fields : ∀ field ∈ schema, Field.Convertible field (record.member field.1.name)) :
      Schema.Convertible schema record

end

theorem Schema.convertible_iff_fields (schema : Schema) (record : Value) :
    schema.Convertible record ↔
      ∀ field ∈ schema, Field.Convertible field (record.member field.1.name) :=
  ⟨fun ⟨fields⟩ => fields, .intro⟩

theorem Value.not_nullish_of_present {v : Value} (present : v.isNullish = false) :
    ¬ (v = .undefined ∨ v = .null) := by
  rintro (rfl | rfl) <;> cases present

theorem Primitive.coerce_present (p : Primitive) {v : Value} (present : v.isNullish = false) :
    (p.coerce v).isNullish = false := by
  cases p with
  | boolean | number | string => rfl
  | object | function => exact present
  | array => cases v <;> rfl

theorem TypeUnion.coerce_present (u : TypeUnion) {v : Value} (present : v.isNullish = false) :
    (u.coerce v).isNullish = false := by
  rw [coerce]
  split
  · exact present
  · split
    · exact Primitive.coerce_present _ present
    · exact present

namespace Field

theorem content_present {key : FieldKey} {type : FieldType} {v : Value}
    (present : v.isNullish = false) : Content (key, type) v ↔ type.Admits v := by
  simp [content_iff, FieldKey.excuses, present]

/-- A null or missing value is not converted, so it has to be right as it is. -/
theorem convertible_nullish_iff (field : Field) {v : Value} (nullish : v = .undefined ∨ v = .null) :
    Convertible field v ↔ Content field v := by
  constructor
  · intro h
    cases h with
    | absent optional => exact .excused optional nullish
    | nullish _ admits => exact .admitted admits
    | boolean present | array present | number present | string present | satisfied present
    | converted present | constructed present =>
        exact absurd nullish (Value.not_nullish_of_present present)
    | object | function | mapping | sequence => simp at nullish
  · intro h
    cases h with
    | excused optional => exact .absent optional nullish
    | admitted admits => exact .nullish nullish admits

theorem convertible_primitive_iff {key : FieldKey} (p : Primitive) {v : Value}
    (present : v.isNullish = false) :
    Convertible (key, .primitive p) v ↔ p.Admits (p.coerce v) := by
  have there := Value.not_nullish_of_present present
  constructor
  · intro h
    cases h with
    | absent _ nullish | nullish nullish => exact absurd nullish there
    | boolean => exact .boolean _
    | array => cases v <;> exact .array _
    | number _ h => exact .number _ h
    | string _ h => exact .string _ h
    | object members => exact .object members
    | function id => exact .function id
  · intro h
    cases p with
    | boolean => exact .boolean present
    | array => exact .array present
    | number =>
        cases h with
        | number _ h => exact .number present h
    | string =>
        cases h with
        | string _ h => exact .string present h
    | object =>
        rw [Primitive.coerce] at h
        cases h with
        | object members => exact .object members
    | function =>
        rw [Primitive.coerce] at h
        cases h with
        | function id => exact .function id

theorem convertible_union_iff {key : FieldKey} (u : TypeUnion) {v : Value}
    (present : v.isNullish = false) :
    Convertible (key, .union u) v ↔ u.accepts (u.coerce v) = true := by
  have there := Value.not_nullish_of_present present
  by_cases accepted : u.accepts v = true
  · obtain ⟨name, mem, h⟩ := (TypeUnion.accepts_iff u v).1 accepted
    rw [TypeUnion.coerce_of_accepts accepted]
    exact iff_of_true (.satisfied present mem h) accepted
  · cases first : u.members.findSome? TypeName.primitive? with
    | some p =>
        obtain ⟨name, mem, converts⟩ := List.exists_of_findSome?_eq_some first
        have convertible : name = .string ∨ name = .number ∨ name = .boolean := by
          cases name <;> simp_all [TypeName.primitive?]
        rw [TypeUnion.coerce, if_neg accepted, first]
        exact iff_of_true (.converted present mem convertible) (TypeUnion.accepts_converted first v)
    | none =>
        rw [TypeUnion.coerce, if_neg accepted, first]
        refine iff_of_false (fun h => ?_) accepted
        cases h with
        | absent _ nullish | nullish nullish => exact there nullish
        | satisfied _ mem h => exact accepted ((TypeUnion.accepts_iff u v).2 ⟨_, mem, h⟩)
        | converted _ mem h =>
            have stuck := List.findSome?_eq_none_iff.1 first _ mem
            obtain rfl | rfl | rfl := h <;> cases stuck

theorem convertible_custom_iff {key : FieldKey} (c : CustomType) {v : Value}
    (present : v.isNullish = false) : Convertible (key, .custom c) v ↔
      ∃ i, c.construct v = .ok i ∧ Content (key, .custom c) i.primitive := by
  have there := Value.not_nullish_of_present present
  constructor
  · intro h
    cases h with
    | absent _ nullish | nullish nullish => exact absurd nullish there
    | constructed _ made h =>
        obtain accepted | ⟨optional, nullish⟩ := h
        · exact ⟨_, made, .admitted (.custom accepted)⟩
        · exact ⟨_, made, .excused optional nullish⟩
  · rintro ⟨i, made, content⟩
    cases content with
    | excused optional nullish => exact .constructed present made (.inr ⟨optional, nullish⟩)
    | admitted h =>
        cases h with
        | custom accepted => exact .constructed present made (.inl accepted)

theorem convertible_mapping_iff (key : FieldKey) (schema : Schema) (members : Record) :
    Convertible (key, .nested schema) (.mapping members) ↔ schema.Convertible (.mapping members) := by
  refine ⟨fun h => ?_, .mapping⟩
  cases h with
  | absent _ nullish | nullish nullish => simp at nullish
  | mapping h => exact h

theorem convertible_sequence_iff (key : FieldKey) (schema : Schema) (items : List Value) :
    Convertible (key, .nested schema) (.sequence items) ↔
      ∀ item ∈ items, (∃ members, item = .mapping members) ∧ schema.Convertible item := by
  constructor
  · intro h
    cases h with
    | absent _ nullish | nullish nullish => simp at nullish
    | sequence mappings each => exact fun item mem => ⟨mappings item mem, each item mem⟩
  · intro h
    exact .sequence (fun item mem => (h item mem).1) (fun item mem => (h item mem).2)

end Field

namespace Schema

variable {schema : Schema}

/-- The coerced member of a field is the field's coercion of the member. -/
theorem coerce_member {members : Record} {w : Value}
    (made : schema.coerce (.mapping members) = .ok w) {name : String} {field : Field}
    (found : schema.field? name = some field) :
    field.2.coerce ((Value.mapping members).member name) = .ok (w.member name) := by
  obtain ⟨coerced, steps, rfl⟩ := (schema.coerce_mapping_eq_ok_iff members w).1 made
  clear made
  simp only [Value.member_mapping]
  induction steps with
  | nil => exact FieldType.coerce_of_nullish _ (.inl rfl)
  | @cons m g members coerced step _ ih =>
      obtain ⟨named, step⟩ := step
      rw [List.lookup_cons, List.lookup_cons, named]
      by_cases here : name = m.1
      · rw [coerceMember, ← here, found] at step
        simpa [here] using step
      · simpa [beq_eq_false_iff_ne.2 here] using ih

theorem convertible_iff_of_fields (distinct : schema.names.Nodup) {members : Record}
    (named : (Value.mapping members).WellFormed)
    (each : ∀ field ∈ schema, ∀ v : Value, v.WellFormed → (Field.Convertible field v ↔
      ∃ w, field.2.coerce v = .ok w ∧ Field.Content field w)) :
    schema.Convertible (.mapping members) ↔
      ∃ w, schema.coerce (.mapping members) = .ok w ∧ schema.Conforms w := by
  rw [convertible_iff_fields]
  constructor
  · intro convertible
    have made (m : String × Value) (mem : m ∈ members) : ∃ v, schema.coerceMember m = .ok v := by
      rw [coerceMember]
      cases found : schema.field? m.1 with
      | none => exact ⟨_, rfl⟩
      | some field =>
          have h := convertible field (mem_of_field? found)
          rw [name_of_field? found, Value.member_of_mem_entries named mem] at h
          obtain ⟨w, made, -⟩ := (each field (mem_of_field? found) _ (named.of_mem_entries mem)).1 h
          exact ⟨w, made⟩
    have steps : ∃ coerced : Record,
        List.Forall₂ (fun m g => g.1 = m.1 ∧ schema.coerceMember m = .ok g.2) members coerced := by
      refine Fallible.exists_forall₂ fun m mem => ?_
      obtain ⟨v, made⟩ := made m mem
      exact ⟨(m.1, v), rfl, made⟩
    obtain ⟨coerced, steps⟩ := steps
    have whole := (schema.coerce_mapping_eq_ok_iff members _).2 ⟨coerced, steps, rfl⟩
    refine ⟨_, whole, .intro fun field mem => ?_⟩
    obtain ⟨w, made, content⟩ := (each field mem _ (named.member _)).1 (convertible field mem)
    rw [coerce_member whole (field?_of_mem distinct mem)] at made
    rw [Except.ok.inj made]
    exact content
  · rintro ⟨w, whole, conforms⟩ field mem
    refine (each field mem _ (named.member _)).2 ⟨_, ?_, (conforms_iff_content _ _).1 conforms field mem⟩
    exact coerce_member whole (field?_of_mem distinct mem)

variable (records : ∀ members, (Value.mapping members).WellFormed →
  (schema.Convertible (.mapping members) ↔
    ∃ w, schema.coerce (.mapping members) = .ok w ∧ schema.Conforms w))

include records

theorem convertible_item_iff {item : Value} (distinct : item.WellFormed) :
    (∃ members, item = .mapping members) ∧ schema.Convertible item ↔
      ∃ w, schema.coerce item = .ok w ∧ (∃ members, w = .mapping members) ∧ schema.Conforms w := by
  by_cases mapping : ∃ members, item = .mapping members
  · obtain ⟨members, rfl⟩ := mapping
    rw [records members distinct]
    constructor
    · rintro ⟨-, w, made, conforms⟩
      obtain ⟨coerced, -, rfl⟩ := (schema.coerce_mapping_eq_ok_iff members w).1 made
      exact ⟨_, made, ⟨coerced, rfl⟩, conforms⟩
    · rintro ⟨w, made, -, conforms⟩
      exact ⟨⟨members, rfl⟩, w, made, conforms⟩
  · refine iff_of_false (fun h => mapping h.1) ?_
    rintro ⟨w, made, other, -⟩
    rw [coerce_of_not_mapping schema (not_exists.1 mapping)] at made
    cases made
    exact mapping other

theorem convertible_nested_iff {key : FieldKey} {v : Value} (distinct : v.WellFormed)
    (present : v.isNullish = false) : Field.Convertible (key, .nested schema) v ↔
      ∃ w, (FieldType.nested schema).coerce v = .ok w ∧ Field.Content (key, .nested schema) w := by
  cases v with
  | undefined | null => cases present
  | mapping members =>
      rw [Field.convertible_mapping_iff, records members distinct,
        FieldType.coerce_nested_of_not_sequence schema (by simp)]
      refine exists_congr fun w => and_congr_right fun made => ?_
      obtain ⟨coerced, -, rfl⟩ := (schema.coerce_mapping_eq_ok_iff members w).1 made
      rw [Field.content_present rfl, FieldType.admits_mapping_iff]
  | sequence items =>
      have inner := (Value.wellFormed_sequence_iff items).1 distinct
      rw [Field.convertible_sequence_iff, FieldType.coerce_nested_sequence,
        forall₂_congr fun item mem => convertible_item_iff records (inner item mem),
        ← Fallible.exists_forall₂_iff]
      constructor
      · rintro ⟨coerced, steps, each⟩
        refine ⟨.sequence coerced, ?_, ?_⟩
        · rw [Fallible.mapM_eq_ok.2 steps]
          rfl
        · exact (Field.content_present rfl).2 ((FieldType.admits_sequence_iff _ _).2 each)
      · rintro ⟨w, made, content⟩
        obtain ⟨coerced, steps, rfl⟩ := Fallible.map_eq_ok.1 made
        have admits := (Field.content_present rfl).1 content
        exact ⟨coerced, Fallible.mapM_eq_ok.1 steps, (FieldType.admits_sequence_iff _ _).1 admits⟩
  | bool | number | string | function | custom =>
      have there := Value.not_nullish_of_present present
      refine iff_of_false (fun h => ?_) ?_
      · cases h with
        | absent _ nullish | nullish nullish => exact there nullish
      · rintro ⟨w, made, content⟩
        cases made
        cases (Field.content_present rfl).1 content

end Schema

namespace Field

theorem convertible_iff_of_present {key : FieldKey} {type : FieldType} {v : Value}
    (h : v.isNullish = false →
      (Convertible (key, type) v ↔ ∃ w, type.coerce v = .ok w ∧ Content (key, type) w)) :
    Convertible (key, type) v ↔ ∃ w, type.coerce v = .ok w ∧ Content (key, type) w := by
  cases present : v.isNullish with
  | false => exact h present
  | true =>
      have nullish := (Value.isNullish_iff v).1 present
      rw [convertible_nullish_iff _ nullish]
      simp [FieldType.coerce_of_nullish type nullish]

/-- A value is convertible to a field exactly if coercion makes of it what the field is content
with. -/
theorem convertible_iff {key : FieldKey} {type : FieldType} (wellFormed : type.WellFormed)
    {v : Value} (distinct : v.WellFormed) :
    Convertible (key, type) v ↔ ∃ w, type.coerce v = .ok w ∧ Content (key, type) w := by
  induction type using FieldType.induction generalizing key v with
  | primitive p =>
      refine convertible_iff_of_present fun present => ?_
      have made : FieldType.coerce (.primitive p) v = .ok (p.coerce v) :=
        FieldType.coerce_of_present (by simp) present
      simp only [made, Except.ok.injEq, exists_eq_left', content_present (p.coerce_present present),
        convertible_primitive_iff p present]
      exact ⟨.primitive, fun | .primitive h => h⟩
  | union u =>
      refine convertible_iff_of_present fun present => ?_
      have made : FieldType.coerce (.union u) v = .ok (u.coerce v) :=
        FieldType.coerce_of_present (by simp) present
      simp only [made, Except.ok.injEq, exists_eq_left', content_present (u.coerce_present present),
        convertible_union_iff u present, ← FieldType.accepts_iff, FieldType.accepts]
  | custom c =>
      refine convertible_iff_of_present fun present => ?_
      rw [FieldType.coerce_of_present (by simp) present, convertible_custom_iff c present]
      simp only [FieldType.convert, Fallible.map_eq_ok]
      constructor
      · rintro ⟨i, constructed, content⟩
        exact ⟨_, ⟨i, constructed, rfl⟩, content⟩
      · rintro ⟨_, ⟨i, constructed, rfl⟩, content⟩
        exact ⟨i, constructed, content⟩
  | nested schema ih =>
      refine convertible_iff_of_present fun present => ?_
      cases wellFormed with
      | nested names fields =>
          refine Schema.convertible_nested_iff (fun members named => ?_) distinct present
          exact Schema.convertible_iff_of_fields names named
            fun field mem v distinct => ih field mem (fields field mem) distinct

end Field

/-- Parsing a mapping with validation succeeds exactly if its members are convertible to their
fields. -/
theorem parse_validated_iff_convertible {schema : Schema} {members : Record}
    (wellFormed : schema.WellFormed) (distinct : (Value.mapping members).WellFormed) :
    (∃ parsed, (Factory.ofSchema schema).parse ⟨true⟩ (.mapping members) = .ok parsed) ↔
      schema.Convertible (.mapping members) := by
  rw [Schema.convertible_iff_of_fields wellFormed.distinct distinct
    fun field mem v distinct => Field.convertible_iff (wellFormed.fields field mem) distinct]
  exact exists_congr fun parsed => Factory.parse_eq_ok_iff schema (.mapping members) parsed

/-- The day is taken from an instance, and null stands for a required guide. -/
theorem parse_visit_of_instance :
    visitor.WellFormed ∧ (visitedOnce (.custom "Int" (.number (.zero true))) .null).WellFormed ∧
    visitor.Convertible (visitedOnce (.custom "Int" (.number (.zero true))) .null) ∧
    ∃ parsed, (Factory.ofSchema visitor).parse ⟨true⟩
      (visitedOnce (.custom "Int" (.number (.zero true))) .null) = .ok parsed := by
  have compiled : Schema.ofJson .builtin (.object [("visits?", .object
      [("day", .string "Int"), ("guide", .string "string|mixed")])]) = .ok visitor :=
    rfl
  have wellFormed : visitor.WellFormed := Schema.wellFormed_of_ofJson compiled
  have distinct : (visitedOnce (.custom "Int" (.number (.zero true))) .null).WellFormed :=
    wellFormed_visitedOnce trivial trivial
  have made : IntegerNumber.type.construct (.custom "Int" (.number (.zero true))) =
      .ok ⟨"Int", .number (.zero true)⟩ :=
    (IntegerNumber.construct_instance _).trans
      (IntegerNumber.construct_number (Number.isInteger_zero true))
  have accepted : IntegerNumber.type.accepts (.number (.zero true)) = true :=
    (IntegerNumber.type_accepts_number _).trans (Number.isInteger_zero true)
  have day : Field.Convertible (⟨"day", .required⟩, .custom IntegerNumber.type)
      (.custom "Int" (.number (.zero true))) :=
    .constructed rfl made (.inl accepted)
  have guide : Field.Convertible (⟨"guide", .required⟩, .union ⟨"string|mixed", [.string, .mixed]⟩)
      .null :=
    .nullish (.inr rfl) (.union (List.mem_cons_of_mem _ List.mem_cons_self) (.mixed _ (by simp)))
  have convertible : visitor.Convertible
      (visitedOnce (.custom "Int" (.number (.zero true))) .null) := by
    refine .intro (List.forall_mem_singleton.2 ?_)
    refine .sequence (List.forall_mem_singleton.2 ⟨_, rfl⟩) (List.forall_mem_singleton.2 ?_)
    exact .intro (List.forall_mem_cons.2 ⟨day, List.forall_mem_singleton.2 guide⟩)
  exact ⟨wellFormed, distinct, convertible,
    (parse_validated_iff_convertible wellFormed distinct).2 convertible⟩

end RecordSchema
