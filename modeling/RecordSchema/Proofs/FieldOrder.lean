import RecordSchema.Proofs.Coercion
import RecordSchema.Proofs.FirstMismatch
import RecordSchema.Proofs.UpToOrder

namespace RecordSchema

mutual

inductive FieldType.Reordered : FieldType → FieldType → Prop
  | primitive (p : Primitive) : FieldType.Reordered (.primitive p) (.primitive p)
  | union (u : TypeUnion) : FieldType.Reordered (.union u) (.union u)
  | custom (c : CustomType) : FieldType.Reordered (.custom c) (.custom c)
  | nested {schema middle other : Schema} (each : List.Forall₂ Field.Reordered schema middle)
      (order : middle.Perm other) : FieldType.Reordered (.nested schema) (.nested other)

inductive Field.Reordered : Field → Field → Prop
  | intro (key : FieldKey) {type other : FieldType} (h : FieldType.Reordered type other) :
      Field.Reordered (key, type) (key, other)

end

def Schema.Reordered (schema other : Schema) : Prop :=
  UpToOrder Field.Reordered schema other

theorem Field.Reordered.key {f g : Field} (h : f.Reordered g) : f.1 = g.1 := by
  cases h
  rfl

theorem Field.Reordered.type {f g : Field} (h : f.Reordered g) : f.2.Reordered g.2 := by
  cases h
  assumption

namespace Schema.Reordered

variable {schema other : Schema}

theorem names_perm (h : schema.Reordered other) : schema.names.Perm other.names :=
  h.map_perm fun _ _ same => congrArg FieldKey.name same.key

/-- Fields of one name are found in both, since no other field has the name. -/
theorem field? (h : schema.Reordered other) (distinct : schema.names.Nodup) (name : String) :
    Option.Rel Field.Reordered (schema.field? name) (other.field? name) := by
  have distinct' : other.names.Nodup := h.names_perm.nodup_iff.1 distinct
  refine Fallible.rel_of_found (fun f found => ?_) fun g found => ?_
  · obtain ⟨g, mem, same⟩ := h.exists_right (mem_of_field? found)
    have named := name_of_field? found
    rw [same.key] at named
    exact ⟨g, named ▸ field?_of_mem distinct' mem, same⟩
  · obtain ⟨f, mem, same⟩ := h.exists_left (mem_of_field? found)
    have named := name_of_field? found
    rw [← same.key] at named
    exact ⟨f, named ▸ field?_of_mem distinct mem⟩

theorem conforms_iff_of_fields (h : schema.Reordered other)
    (each : ∀ f ∈ schema, ∀ g : Field, f.Reordered g → ∀ v, f.2.Admits v ↔ g.2.Admits v)
    (record : Value) : schema.Conforms record ↔ other.Conforms record := by
  have content (f g : Field) (from_f : f ∈ schema) (same : f.Reordered g) :
      f.Content (record.member f.1.name) ↔ g.Content (record.member g.1.name) := by
    rw [Field.content_iff, Field.content_iff, same.key, each f from_f g same]
  rw [conforms_iff_content, conforms_iff_content]
  constructor
  · intro conforms g mem
    obtain ⟨f, from_f, same⟩ := h.exists_left mem
    exact (content f g from_f same).1 (conforms f from_f)
  · intro conforms f mem
    obtain ⟨g, from_g, same⟩ := h.exists_right mem
    exact (content f g mem same).2 (conforms g from_g)

end Schema.Reordered

namespace FieldType.Reordered

variable {type other : FieldType}

theorem admits_iff (h : type.Reordered other) (v : Value) : type.Admits v ↔ other.Admits v := by
  induction type using FieldType.induction generalizing other v with
  | primitive | union | custom => cases h; exact Iff.rfl
  | nested schema ih =>
      cases h with
      | @nested _ _ other each order =>
          have conforms : ∀ record, schema.Conforms record ↔ Schema.Conforms other record :=
            Schema.Reordered.conforms_iff_of_fields ⟨_, each, order⟩
              fun f mem g same => ih f mem same.type
          cases v with
          | mapping members => rw [admits_mapping_iff, admits_mapping_iff, conforms]
          | sequence items => simp only [admits_sequence_iff, conforms]
          | _ => exact iff_of_false (fun h => by cases h) (fun h => by cases h)

theorem coerce_eq (h : type.Reordered other) (distinct : type.WellFormed) :
    type.coerce = other.coerce := by
  induction type using FieldType.induction generalizing other with
  | primitive | union | custom => cases h; rfl
  | nested schema ih =>
      cases h with
      | nested each order =>
          cases distinct with
          | nested distinct inside =>
              have same : Schema.Reordered schema _ := ⟨_, each, order⟩
              apply coerce_nested_congr
              apply Schema.coerce_eq_of_fields (same.field? distinct)
              exact fun f mem g related => ih f mem related.type (inside f mem)

end FieldType.Reordered

namespace Schema.Reordered

variable {schema other : Schema}

theorem conforms_iff (h : schema.Reordered other) (record : Value) :
    schema.Conforms record ↔ other.Conforms record :=
  h.conforms_iff_of_fields (fun _ _ _ same => same.type.admits_iff) record

theorem coerce_eq (h : schema.Reordered other) (distinct : schema.WellFormed) :
    schema.coerce = other.coerce :=
  coerce_eq_of_fields (h.field? distinct.distinct)
    fun f mem _ same => same.type.coerce_eq (distinct.fields f mem)

theorem descend? (h : schema.Reordered other) (distinct : schema.WellFormed)
    (path : List String) :
    Option.Rel Schema.Reordered (schema.descend? path) (other.descend? path) := by
  induction path generalizing schema other with
  | nil => exact .some h
  | cons name path ih =>
      rw [Schema.descend?, Schema.descend?]
      rcases Fallible.rel_cases (h.field? distinct.distinct name) with
        ⟨left, right⟩ | ⟨f, g, left, right, same⟩
      · rw [left, right]
        exact .none
      · rw [left, right]
        have inside := distinct.fields f (mem_of_field? left)
        cases same with
        | intro key type =>
            cases type with
            | primitive | union | custom => exact .none
            | nested each order =>
                cases inside with
                | nested distinct inside => exact ih ⟨_, each, order⟩ ⟨distinct, inside⟩

end Schema.Reordered

/-- Schemas that differ in the order of fields only accept the same records, coerce them to the same
results and for the same reasons not, and have such schemas nested at the same paths. -/
theorem field_order_immaterial {schema other : Schema} (distinct : schema.WellFormed)
    (same : schema.Reordered other) :
    (∀ record, (∃ c, (Factory.ofSchema schema).create record = .ok c) ↔
      ∃ c, (Factory.ofSchema other).create record = .ok c) ∧
    (∀ record, schema.coerce record = other.coerce record) ∧
    ∀ path, Option.Rel Schema.Reordered (schema.resolve? path) (other.resolve? path) := by
  refine ⟨fun record => ?_, fun record => ?_, fun path => ?_⟩
  · rw [Factory.create_eq_ok_iff, Factory.create_eq_ok_iff]
    exact same.conforms_iff record
  · rw [same.coerce_eq distinct]
  · exact same.descend? distinct (Path.segments path)

namespace Parcel

def street : Field :=
  (⟨"street", .required⟩, .primitive .string)

def house : Field :=
  (⟨"house", .trailing⟩, .primitive .number)

def address (fields : Schema) : Field :=
  (⟨"to", .required⟩, .nested fields)

def weight : Field :=
  (⟨"weight", .leading⟩, .primitive .number)

def sent (house : Value) : Value :=
  .mapping [("weight", .null), ("to", .mapping [("house", house), ("street", .string "A")])]

/-- Fields change places on two levels, where one record is accepted and another is not. -/
theorem field_order_of_parcel :
    Schema.WellFormed [address [street, house], weight] ∧
    Schema.Reordered [address [street, house], weight] [weight, address [house, street]] ∧
    (∃ c, (Factory.ofSchema [weight, address [house, street]]).create (sent .undefined) = .ok c) ∧
    (¬ ∃ c, (Factory.ofSchema [weight, address [house, street]]).create (sent (.string "1")) =
      .ok c) ∧
    Schema.coerce [address [street, house], weight] (sent (.bool true)) =
      Schema.coerce [weight, address [house, street]] (sent (.bool true)) ∧
    ∃ inner, Schema.resolve? [weight, address [house, street]] "to" = some inner ∧
      Schema.Reordered [street, house] inner := by
  have distinct : Schema.WellFormed [address [street, house], weight] := by
    refine ⟨by decide, List.forall_mem_cons.2 ⟨.nested (by decide) ?_, ?_⟩⟩
    · exact List.forall_mem_cons.2 ⟨.primitive _, List.forall_mem_singleton.2 (.primitive _)⟩
    · exact List.forall_mem_singleton.2 (.primitive _)
  have same : Schema.Reordered [address [street, house], weight]
      [weight, address [house, street]] := by
    refine ⟨[address [house, street], weight], ?_, .swap _ _ []⟩
    have fields : List.Forall₂ Field.Reordered [street, house] [street, house] :=
      .cons (.intro _ (.primitive _)) (.cons (.intro _ (.primitive _)) .nil)
    exact .cons (.intro _ (.nested fields (.swap _ _ []))) (.cons (.intro _ (.primitive _)) .nil)
  obtain ⟨accepted, coerced, resolved⟩ := field_order_immaterial distinct same
  refine ⟨distinct, same, (accepted _).1 ⟨_, rfl⟩, ?_, coerced _, ?_⟩
  · rw [← accepted]
    rintro ⟨c, created⟩
    cases created
  · rcases Fallible.rel_cases (resolved "to") with ⟨absent, -⟩ | ⟨s, t, left, right, inside⟩
    · cases absent
    · cases left
      exact ⟨t, right, inside⟩

end Parcel

end RecordSchema
