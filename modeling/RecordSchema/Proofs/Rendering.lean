import RecordSchema.Proofs.Building
import RecordSchema.Schema.Int

namespace RecordSchema

namespace FieldType

mutual

def toJson : FieldType → Json
  | nested schema => .object (fieldsToJson schema)
  | type => .string type.display

def fieldsToJson : List (FieldKey × FieldType) → List (String × Json)
  | [] => []
  | (key, type) :: r => (key.display, toJson type) :: fieldsToJson r

end

theorem fieldsToJson_eq_map (schema : Schema) :
    fieldsToJson schema = schema.map fun f => (f.1.display, f.2.toJson) := by
  induction schema with
  | nil => rfl
  | cons f r ih => rw [fieldsToJson, ih, List.map_cons]

theorem toJson_of_not_nested {type : FieldType} (h : ∀ inner, type ≠ .nested inner) :
    type.toJson = .string type.display := by
  cases type with
  | nested schema => exact absurd rfl (h schema)
  | primitive | union | custom => rfl

end FieldType

def Schema.toJson (schema : Schema) : Json :=
  (FieldType.nested schema).toJson

namespace Schema

variable {registry : Registry}

theorem toJson_of_object {members : List (String × Json)} {schema : Schema}
    (each : ∀ m ∈ members, ∀ descriptor type, typeOfJson registry descriptor m.2 = .ok type →
      type.toJson = m.2)
    (compiled : ofJson registry (.object members) = .ok schema) :
    schema.toJson = .object members := by
  obtain ⟨fields, -⟩ := ofJson_object_eq_ok_iff.1 compiled
  have listed := (List.forall₂_and_left members schema).2 ⟨fun m mem => mem, fields⟩
  have rendered : List.Forall₂ (fun m f => m = (f.1.display, f.2.toJson)) members schema := by
    refine listed.imp fun m f h => ?_
    obtain ⟨mem, fieldOf⟩ := h
    have type := each m mem m.1 f.2 fieldOf.typed
    rw [fieldOf.marks.display, type]
  have whole : members = schema.map fun f => (f.1.display, f.2.toJson) := by
    rw [← List.forall₂_eq_eq_eq, List.forall₂_map_right_iff]
    exact rendered
  rw [toJson, FieldType.toJson, FieldType.fieldsToJson_eq_map, ← whole]

theorem toJson_of_typeOfJson (j : Json) (descriptor : String) (type : FieldType)
    (typed : typeOfJson registry descriptor j = .ok type) : type.toJson = j := by
  induction j using Json.induction generalizing descriptor type with
  | string text =>
      obtain ⟨display, leaf⟩ := Registry.display_of_resolve typed
      rw [FieldType.toJson_of_not_nested leaf, display]
  | object members ih =>
      rw [typeOfJson_object] at typed
      obtain ⟨schema, compiled, rfl⟩ := Fallible.map_eq_ok.1 typed
      exact toJson_of_object ih compiled
  | null | bool | number | array => cases typed

theorem toJson_of_ofJson {j : Json} {schema : Schema} (compiled : ofJson registry j = .ok schema) :
    schema.toJson = j := by
  cases j with
  | object members => exact toJson_of_object (fun m _ => toJson_of_typeOfJson m.2) compiled
  | null | bool | number | string | array => cases compiled

end Schema

namespace FieldType

theorem sameFields_self {schema : Schema} (each : ∀ f ∈ schema, f.2.same f.2 = true) :
    sameFields schema schema = true := by
  induction schema with
  | nil => rfl
  | cons f r ih =>
      obtain ⟨first, rest⟩ := List.forall_mem_cons.1 each
      simp [sameFields, first, ih rest]

theorem same_self (type : FieldType) : type.same type = true := by
  induction type using FieldType.induction with
  | nested schema ih => exact sameFields_self ih
  | primitive | union | custom => simp [same]

theorem fieldsToJson_of_same {s t : Schema}
    (each : ∀ f ∈ s, ∀ type, f.2.same type = true → f.2.toJson = type.toJson)
    (h : sameFields s t = true) : fieldsToJson s = fieldsToJson t := by
  induction s generalizing t with
  | nil =>
      cases t with
      | nil => rfl
      | cons g t => cases h
  | cons f s ih =>
      cases t with
      | nil => cases h
      | cons g t =>
          obtain ⟨first, rest⟩ := List.forall_mem_cons.1 each
          obtain ⟨⟨key, type⟩, tail⟩ :
              (f.1 = g.1 ∧ f.2.same g.2 = true) ∧ sameFields s t = true := by
            simpa [sameFields] using h
          rw [fieldsToJson, fieldsToJson, key, first g.2 type, ih rest tail]

theorem toJson_of_same (a b : FieldType) (h : a.same b = true) : a.toJson = b.toJson := by
  induction a using FieldType.induction generalizing b with
  | primitive p =>
      cases b with
      | primitive q => rw [eq_of_beq (a := p) h]
      | union | nested | custom => cases h
  | union u =>
      cases b with
      | union w => rw [eq_of_beq (a := u) h]
      | primitive | nested | custom => cases h
  | nested s ih =>
      cases b with
      | nested t => rw [toJson, toJson, fieldsToJson_of_same ih h]
      | primitive | union | custom => cases h
  | custom c =>
      cases b with
      | custom d =>
          have name : c.name = d.name := eq_of_beq h
          rw [toJson_of_not_nested (by simp), toJson_of_not_nested (by simp), display, display,
            name]
      | primitive | union | nested => cases h

end FieldType

/-- A compiled schema renders as its descriptor, members in their order; and two descriptors compile
to equal schemas only if they are the same descriptor. -/
theorem Schema.rendering_inverts_compilation {registry : Registry} {i j : Json} {s t : Schema}
    (compiled : ofJson registry i = .ok s) (other : ofJson registry j = .ok t) :
    s.toJson = i ∧ (s.same t = true ↔ i = j) := by
  have first := toJson_of_ofJson compiled
  have second := toJson_of_ofJson other
  refine ⟨first, ?_, ?_⟩
  · intro h
    rw [← first, ← second]
    exact FieldType.toJson_of_same (.nested s) (.nested t) h
  · rintro rfl
    rw [compiled] at other
    cases other
    exact FieldType.same_self (.nested s)

def markedDescriptor (inner : List (String × Json)) : Json :=
  .object [("??", .string "Int"), ("?tags", .string "array | string"), ("home?", .object inner)]

/-- The descriptor with a nested schema, and with the members of that in the other order. -/
theorem rendering_of_marked :
    let first := markedDescriptor [("a", .string "String"), ("?b?", .object [])]
    let second := markedDescriptor [("?b?", .object []), ("a", .string "String")]
    ∃ s t, Schema.ofJson .builtin first = .ok s ∧ Schema.ofJson .builtin second = .ok t ∧
      s.toJson = first ∧ s.same t = false := by
  intro first second
  obtain ⟨s, compiled⟩ : ∃ s, Schema.ofJson .builtin first = .ok s := ⟨_, rfl⟩
  obtain ⟨t, other⟩ : ∃ t, Schema.ofJson .builtin second = .ok t := ⟨_, rfl⟩
  obtain ⟨rendered, alike⟩ := Schema.rendering_inverts_compilation compiled other
  refine ⟨s, t, compiled, other, rendered, ?_⟩
  rw [← Bool.not_eq_true, alike]
  simp [first, second, markedDescriptor]

end RecordSchema
