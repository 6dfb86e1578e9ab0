import RecordSchema.Proofs.Building

namespace RecordSchema

mutual

/-- The members of an object describe a schema if their types are described and their keys have
distinct names. -/
inductive Schema.Described (registry : Registry) : Json → Prop
  | object {members : List (String × Json)} {keys : List FieldKey}
      (types : ∀ m ∈ members, FieldType.Described registry m.2)
      (listed : FieldKey.Listed (Members.names members) keys) :
      Schema.Described registry (.object members)

inductive FieldType.Described (registry : Registry) : Json → Prop
  | name {text : String} (h : registry.NamesType text) : FieldType.Described registry (.string text)
  | nested {j : Json} (h : Schema.Described registry j) : FieldType.Described registry j

end

mutual

/-- The first fault of a descriptor: that of its first member without a type, and only where all
members have types that of its keys. -/
inductive Schema.Fault (registry : Registry) : Json → SchemaError → Prop
  | notObject {j : Json} (h : ∀ members, j ≠ .object members) : Schema.Fault registry j .notAnObject
  | type {before after : List (String × Json)} {descriptor : String} {j : Json} {e : SchemaError}
      (passed : ∀ m ∈ before, FieldType.Described registry m.2)
      (fault : FieldType.Fault registry descriptor j e) :
      Schema.Fault registry (.object (before ++ (descriptor, j) :: after)) e
  | key {members : List (String × Json)} {e : SchemaError}
      (types : ∀ m ∈ members, FieldType.Described registry m.2)
      (fault : FieldKey.Fault [] (Members.names members) e) :
      Schema.Fault registry (.object members) e

inductive FieldType.Fault (registry : Registry) : String → Json → SchemaError → Prop
  | kind {descriptor : String} {j : Json} (noText : ∀ text, j ≠ .string text)
      (noObject : ∀ members, j ≠ .object members) :
      FieldType.Fault registry descriptor j (.invalidDescriptor descriptor j)
  | name {descriptor text : String} {e : SchemaError} (h : registry.NamesNone text e) :
      FieldType.Fault registry descriptor (.string text) e
  | nested {descriptor : String} {members : List (String × Json)} {e : SchemaError}
      (h : Schema.Fault registry (.object members) e) :
      FieldType.Fault registry descriptor (.object members) e

end

namespace FieldType

/-- A type has the shape of its descriptor: a text gives a type without fields, and the fields of a
nested schema come in the order of the members, each with the key that its descriptor marks. -/
inductive Mirrors : Json → FieldType → Prop
  | name {text : String} {type : FieldType} (h : ∀ inner, type ≠ .nested inner) :
      Mirrors (.string text) type
  | object {members : List (String × Json)} {schema : Schema}
      (keys : List.Forall₂ (fun m f => FieldKey.Marks m.1 f.1) members schema)
      (types : List.Forall₂ (fun m f => Mirrors m.2 f.2) members schema) :
      Mirrors (.object members) (.nested schema)

inductive EverySchema (p : Schema → Prop) : FieldType → Prop
  | leaf {type : FieldType} (h : ∀ inner, type ≠ .nested inner) : EverySchema p type
  | nested {schema : Schema} (h : p schema) (fields : ∀ field ∈ schema, EverySchema p field.2) :
      EverySchema p (.nested schema)

end FieldType

namespace Schema

/-- Fields have names, and by each name one field is found, the only one of that name. -/
structure UniquelyNamed (schema : Schema) : Prop where
  named : ∀ field ∈ schema, field.1.name ≠ ""
  distinct : schema.names.Nodup
  found : ∀ name field, schema.field? name = some field ↔ field ∈ schema ∧ field.1.name = name

variable {registry : Registry}

theorem exists_ofJson_object_iff_described {members : List (String × Json)}
    (each : ∀ m ∈ members, ∀ descriptor, (∃ type, typeOfJson registry descriptor m.2 = .ok type) ↔
      FieldType.Described registry m.2) :
    (∃ schema, ofJson registry (.object members) = .ok schema) ↔
      Schema.Described registry (.object members) := by
  have types : (∀ m ∈ members, ∃ type, typeOfJson registry m.1 m.2 = .ok type) ↔
      ∀ m ∈ members, FieldType.Described registry m.2 :=
    forall₂_congr fun m mem => each m mem m.1
  rw [exists_ofJson_object_iff, types]
  constructor
  · rintro ⟨types, keys, listed⟩
    exact .object types listed
  · intro h
    cases h with
    | object types listed => exact ⟨types, _, listed⟩

theorem exists_typeOfJson_iff (j : Json) (descriptor : String) :
    (∃ type, typeOfJson registry descriptor j = .ok type) ↔ FieldType.Described registry j := by
  induction j using Json.induction generalizing descriptor with
  | string text =>
      rw [typeOfJson, Registry.exists_resolve_iff]
      constructor
      · exact .name
      · intro h
        cases h with
        | name h => exact h
        | nested h => cases h
  | object members ih =>
      rw [typeOfJson_object, Fallible.exists_map_eq_ok, exists_ofJson_object_iff_described ih]
      constructor
      · exact .nested
      · intro h
        cases h with
        | nested h => exact h
  | null | bool | number | array =>
      refine iff_of_false (by simp [typeOfJson]) ?_
      intro h
      cases h with
      | nested h => cases h

theorem exists_ofJson_iff (j : Json) :
    (∃ schema, ofJson registry j = .ok schema) ↔ Schema.Described registry j := by
  cases j with
  | object members => exact exists_ofJson_object_iff_described fun m _ => exists_typeOfJson_iff m.2
  | null | bool | number | string | array =>
      refine iff_of_false (by simp [ofJson]) ?_
      intro h
      cases h

theorem ofJson_object_eq_error_iff_fault {members : List (String × Json)} {e : SchemaError}
    (each : ∀ m ∈ members, ∀ descriptor e, typeOfJson registry descriptor m.2 = .error e ↔
      FieldType.Fault registry descriptor m.2 e) :
    ofJson registry (.object members) = .error e ↔ Schema.Fault registry (.object members) e := by
  simp only [ofJson_object_eq_error_iff, exists_typeOfJson_iff]
  constructor
  · rintro (⟨before, m, after, rfl, passed, fails⟩ | ⟨types, fault⟩)
    · exact .type passed ((each m (by simp) m.1 e).1 fails)
    · exact .key types fault
  · intro h
    cases h with
    | notObject h => exact absurd rfl (h members)
    | @type before after descriptor j _ passed fault =>
        refine .inl ⟨before, (descriptor, j), after, rfl, passed, ?_⟩
        exact (each (descriptor, j) (by simp) descriptor e).2 fault
    | key types fault => exact .inr ⟨types, fault⟩

theorem typeOfJson_eq_error_iff (j : Json) (descriptor : String) (e : SchemaError) :
    typeOfJson registry descriptor j = .error e ↔ FieldType.Fault registry descriptor j e := by
  induction j using Json.induction generalizing descriptor e with
  | string text =>
      rw [typeOfJson, Registry.resolve_eq_error_iff]
      constructor
      · exact .name
      · intro h
        cases h with
        | kind noText => exact absurd rfl (noText text)
        | name h => exact h
  | object members ih =>
      rw [typeOfJson_object, Fallible.map_eq_error, ofJson_object_eq_error_iff_fault ih]
      constructor
      · exact .nested
      · intro h
        cases h with
        | kind _ noObject => exact absurd rfl (noObject members)
        | nested h => exact h
  | null | bool | number | array =>
      rw [typeOfJson_of_other (by simp) (by simp), Except.error.injEq]
      constructor
      · rintro rfl
        exact .kind (by simp) (by simp)
      · intro h
        cases h
        rfl

theorem ofJson_eq_error_iff (j : Json) (e : SchemaError) :
    ofJson registry j = .error e ↔ Schema.Fault registry j e := by
  cases j with
  | object members =>
      exact ofJson_object_eq_error_iff_fault fun m _ => typeOfJson_eq_error_iff m.2
  | null | bool | number | string | array =>
      rw [ofJson_of_not_object (by simp), Except.error.injEq]
      constructor
      · rintro rfl
        exact .notObject (by simp)
      · intro h
        cases h
        rfl

theorem shape_of_object {members : List (String × Json)} {schema : Schema}
    (each : ∀ m ∈ members, ∀ descriptor type, typeOfJson registry descriptor m.2 = .ok type →
      FieldType.Mirrors m.2 type ∧ type.EverySchema UniquelyNamed)
    (compiled : ofJson registry (.object members) = .ok schema) :
    FieldType.Mirrors (.object members) (.nested schema) ∧
      (FieldType.nested schema).EverySchema UniquelyNamed := by
  obtain ⟨fields, distinct⟩ := ofJson_object_eq_ok_iff.1 compiled
  constructor
  · have listed := (List.forall₂_and_left members schema).2 ⟨fun m mem => mem, fields⟩
    refine .object (fields.imp fun m f fieldOf => fieldOf.marks) (listed.imp fun m f h => ?_)
    obtain ⟨mem, fieldOf⟩ := h
    exact (each m mem m.1 f.2 fieldOf.typed).1
  · refine .nested ⟨?_, distinct, find?_named_eq_some_iff distinct⟩ ?_
    · intro f mem
      obtain ⟨m, -, fieldOf⟩ := Fallible.forall₂_exists_left fields mem
      exact fieldOf.named
    · intro f mem
      obtain ⟨m, from_m, fieldOf⟩ := Fallible.forall₂_exists_left fields mem
      exact (each m from_m m.1 f.2 fieldOf.typed).2

theorem shape_of_typeOfJson (j : Json) (descriptor : String) (type : FieldType)
    (typed : typeOfJson registry descriptor j = .ok type) :
    FieldType.Mirrors j type ∧ type.EverySchema UniquelyNamed := by
  induction j using Json.induction generalizing descriptor type with
  | string text =>
      have leaf := (Registry.display_of_resolve typed).2
      exact ⟨.name leaf, .leaf leaf⟩
  | object members ih =>
      rw [typeOfJson_object] at typed
      obtain ⟨schema, compiled, rfl⟩ := Fallible.map_eq_ok.1 typed
      exact shape_of_object ih compiled
  | null | bool | number | array => cases typed

theorem shape_of_ofJson {j : Json} {schema : Schema} (compiled : ofJson registry j = .ok schema) :
    FieldType.Mirrors j (.nested schema) ∧ (FieldType.nested schema).EverySchema UniquelyNamed := by
  cases j with
  | object members => exact shape_of_object (fun m _ => shape_of_typeOfJson m.2) compiled
  | null | bool | number | string | array => cases compiled

/-- Exactly the descriptors of the grammar compile. The fields of a compiled schema come in the
order of the members, and each is the only one of its name, at every depth; any other descriptor
fails with its first fault. -/
theorem compilation_follows_grammar (registry : Registry) (j : Json) :
    ((∃ schema, ofJson registry j = .ok schema) ↔ Described registry j) ∧
    (∀ schema, ofJson registry j = .ok schema →
      FieldType.Mirrors j (.nested schema) ∧
        (FieldType.nested schema).EverySchema UniquelyNamed) ∧
    (∀ e, ofJson registry j = .error e ↔ Fault registry j e) :=
  ⟨exists_ofJson_iff j, fun _ => shape_of_ofJson, ofJson_eq_error_iff j⟩

/-- A key without a name comes first, but a type is blamed before any key. -/
example : ofJson .empty (.object [("?", .string "String"), ("a", .string "string|date")]) =
    .error (.unknownTypeName "date" "string|date") := rfl

end Schema

end RecordSchema
