import RecordSchema.Proofs.Induction
import RecordSchema.Validation

namespace RecordSchema

inductive Primitive.Admits : Primitive → Value → Prop
  | boolean (b : Bool) : Admits .boolean (.bool b)
  | number (n : Number) (h : n ≠ .nan) : Admits .number (.number n)
  | string (s : String) (h : s ≠ "") : Admits .string (.string s)
  | function (id : Nat) : Admits .function (.function id)
  | object (members : Record) : Admits .object (.mapping members)
  | array (items : List Value) : Admits .array (.sequence items)

inductive TypeName.Admits : TypeName → Value → Prop
  | string (s : String) : Admits .string (.string s)
  | number (n : Number) : Admits .number (.number n)
  | boolean (b : Bool) : Admits .boolean (.bool b)
  | mapping (members : Record) : Admits .object (.mapping members)
  | sequence (items : List Value) : Admits .object (.sequence items)
  | custom (name : String) (primitive : Value) : Admits .object (.custom name primitive)
  | array (items : List Value) : Admits .array (.sequence items)
  | function (id : Nat) : Admits .function (.function id)
  | mixed (v : Value) (h : v ≠ .undefined) : Admits .mixed v

mutual

/-- A union admits what one of its members admits. A nested schema admits a mapping that conforms
to it, and a sequence of such mappings. -/
inductive FieldType.Admits : FieldType → Value → Prop
  | primitive {p : Primitive} {v : Value} (h : p.Admits v) : FieldType.Admits (.primitive p) v
  | union {u : TypeUnion} {name : TypeName} {v : Value} (mem : name ∈ u.members)
      (h : name.Admits v) : FieldType.Admits (.union u) v
  | mapping {schema : Schema} {members : Record} (h : Schema.Conforms schema (.mapping members)) :
      FieldType.Admits (.nested schema) (.mapping members)
  | sequence {schema : Schema} {items : List Value}
      (mappings : ∀ item ∈ items, ∃ members, item = .mapping members)
      (each : ∀ item ∈ items, Schema.Conforms schema item) :
      FieldType.Admits (.nested schema) (.sequence items)
  | custom {c : CustomType} {v : Value} (h : c.accepts v = true) : FieldType.Admits (.custom c) v

/-- A field is content with a missing or null value if it is optional, and with a value that its
type admits. -/
inductive Field.Content : Field → Value → Prop
  | excused {key : FieldKey} {type : FieldType} {v : Value} (optional : key.optionality ≠ .required)
      (nullish : v = .undefined ∨ v = .null) : Field.Content (key, type) v
  | admitted {key : FieldKey} {type : FieldType} {v : Value} (h : type.Admits v) :
      Field.Content (key, type) v

inductive Schema.Conforms : Schema → Value → Prop
  | intro {schema : Schema} {record : Value}
      (fields : ∀ field ∈ schema, Field.Content field (record.member field.1.name)) :
      Schema.Conforms schema record

end

theorem Primitive.accepts_iff (p : Primitive) (v : Value) : p.accepts v = true ↔ p.Admits v := by
  constructor
  · intro h
    cases p <;> cases v <;> simp only [Primitive.accepts, reduceCtorEq] at h
    case boolean.bool b => exact .boolean b
    case number.number n =>
      refine .number n ?_
      rintro rfl
      cases h
    case string.string s =>
      refine .string s ?_
      rintro rfl
      cases h
    case function.function id => exact .function id
    case object.mapping members => exact .object members
    case array.sequence items => exact .array items
  · intro h
    cases h with
    | number n h => cases n <;> simp_all [Primitive.accepts, Number.isNaN]
    | string s h => simpa [Primitive.accepts] using h
    | boolean | function | object | array => rfl

theorem TypeName.accepts_iff (name : TypeName) (v : Value) :
    name.accepts v = true ↔ name.Admits v := by
  constructor
  · intro h
    cases name with
    | mixed =>
        refine .mixed v ?_
        rintro rfl
        cases h
    | string | number | boolean | object | array | function =>
        cases v <;> simp only [TypeName.accepts, reduceCtorEq] at h <;> constructor
  · intro h
    cases h with
    | mixed v h => cases v <;> simp_all [TypeName.accepts]
    | string | number | boolean | mapping | sequence | custom | array | function => rfl

theorem TypeUnion.accepts_iff (u : TypeUnion) (v : Value) :
    u.accepts v = true ↔ ∃ name ∈ u.members, name.Admits v := by
  simp only [TypeUnion.accepts, List.any_eq_true, TypeName.accepts_iff]

theorem Value.isNullish_iff (v : Value) : v.isNullish = true ↔ v = .undefined ∨ v = .null := by
  cases v <;> simp [Value.isNullish]

theorem Value.isMapping_iff (v : Value) : v.isMapping = true ↔ ∃ members, v = .mapping members := by
  cases v <;> simp [Value.isMapping]

theorem FieldKey.excuses_iff (key : FieldKey) (v : Value) :
    key.excuses v = true ↔ key.optionality ≠ .required ∧ (v = .undefined ∨ v = .null) := by
  rw [FieldKey.excuses, Bool.and_eq_true, FieldKey.isOptional, decide_eq_true_iff,
    Value.isNullish_iff]

theorem Field.content_iff (field : Field) (v : Value) :
    Field.Content field v ↔ field.1.excuses v = true ∨ field.2.Admits v := by
  rw [FieldKey.excuses_iff]
  constructor
  · rintro (⟨optional, nullish⟩ | h)
    · exact .inl ⟨optional, nullish⟩
    · exact .inr h
  · rintro (⟨optional, nullish⟩ | h)
    · exact .excused optional nullish
    · exact .admitted h

theorem Schema.conforms_iff_content (schema : Schema) (record : Value) :
    schema.Conforms record ↔ ∀ field ∈ schema, Field.Content field (record.member field.1.name) :=
  ⟨fun ⟨fields⟩ => fields, .intro⟩

theorem FieldType.conforms_eq_true (schema : Schema) (record : Value) :
    FieldType.conforms schema record = true ↔ ∀ field ∈ schema,
      field.1.excuses (record.member field.1.name) = true ∨
        field.2.accepts (record.member field.1.name) = true := by
  induction schema with
  | nil => simp [FieldType.conforms]
  | cons field r ih => simp [FieldType.conforms, ih]

theorem FieldType.admits_mapping_iff (schema : Schema) (members : Record) :
    (FieldType.nested schema).Admits (.mapping members) ↔ schema.Conforms (.mapping members) :=
  ⟨fun | .mapping h => h, .mapping⟩

theorem FieldType.admits_sequence_iff (schema : Schema) (items : List Value) :
    (FieldType.nested schema).Admits (.sequence items) ↔
      ∀ item ∈ items, (∃ members, item = .mapping members) ∧ schema.Conforms item := by
  constructor
  · intro h
    cases h with
    | sequence mappings each =>
        intro item mem
        exact ⟨mappings item mem, each item mem⟩
  · intro h
    exact .sequence (fun item mem => (h item mem).1) (fun item mem => (h item mem).2)

/-- The check of a type decides which values it admits. -/
theorem FieldType.accepts_iff (type : FieldType) (v : Value) :
    type.accepts v = true ↔ type.Admits v := by
  induction type using FieldType.induction generalizing v with
  | primitive p =>
      rw [FieldType.accepts, Primitive.accepts_iff]
      exact ⟨.primitive, fun | .primitive h => h⟩
  | union u =>
      rw [FieldType.accepts, TypeUnion.accepts_iff]
      exact ⟨fun ⟨_, mem, h⟩ => .union mem h, fun | .union mem h => ⟨_, mem, h⟩⟩
  | nested schema ih =>
      have conforms (record : Value) :
          FieldType.conforms schema record = true ↔ schema.Conforms record := by
        rw [FieldType.conforms_eq_true, Schema.conforms_iff_content]
        refine forall_congr' fun field => imp_congr_right fun mem => ?_
        rw [Field.content_iff, ih field mem]
      cases v with
      | mapping members => rw [FieldType.accepts, conforms, FieldType.admits_mapping_iff]
      | sequence items =>
          simp only [FieldType.accepts, FieldType.admits_sequence_iff, List.all_eq_true,
            Bool.and_eq_true, Value.isMapping_iff, conforms]
      | _ =>
          refine iff_of_false ?_ (fun h => by cases h)
          simp [FieldType.accepts]
  | custom c =>
      rw [FieldType.accepts]
      exact ⟨.custom, fun | .custom h => h⟩

namespace Schema

theorem rejects_iff (record : Value) (field : Field) :
    Schema.rejects record field = true ↔ ¬ Field.Content field (record.member field.1.name) := by
  rw [Field.content_iff, ← FieldType.accepts_iff, ← Bool.or_eq_true, Bool.not_eq_true]
  simp only [Schema.rejects, Bool.not_eq_true']

theorem rejects_eq_false_iff (record : Value) (field : Field) :
    Schema.rejects record field = false ↔ Field.Content field (record.member field.1.name) := by
  rw [← Bool.not_eq_true, rejects_iff, Classical.not_not]

structure FirstRejecting (schema : Schema) (record : Value) (field : Field) : Prop where
  rejects : ¬ Field.Content field (record.member field.1.name)
  first : ∃ before after, schema = before ++ field :: after ∧
    ∀ other ∈ before, Field.Content other (record.member other.1.name)

theorem mismatch?_eq_some_iff (schema : Schema) (record : Value) (field : Field) :
    schema.mismatch? record = some field ↔ schema.FirstRejecting record field := by
  rw [mismatch?, List.find?_eq_some_iff_append]
  simp only [rejects_iff, Bool.not_eq_true', rejects_eq_false_iff]
  exact ⟨fun ⟨rejects, first⟩ => ⟨rejects, first⟩, fun ⟨rejects, first⟩ => ⟨rejects, first⟩⟩

theorem mismatch?_eq_none_iff (schema : Schema) (record : Value) :
    schema.mismatch? record = none ↔ schema.Conforms record := by
  simp only [mismatch?, List.find?_eq_none, Bool.not_eq_true, rejects_eq_false_iff,
    conforms_iff_content]

theorem firstMismatch?_eq_none_iff (schema : Schema) (records : List Value) :
    schema.firstMismatch? records = none ↔ ∀ record ∈ records, schema.Conforms record := by
  simp only [firstMismatch?, List.findSome?_eq_none_iff, mismatch?_eq_none_iff]

end Schema

end RecordSchema
