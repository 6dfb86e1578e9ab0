import RecordSchema.Schema.Basic

namespace RecordSchema

@[elab_as_elim]
theorem Value.induction {motive : Value → Prop}
    (undefined : motive .undefined) (null : motive .null)
    (bool : ∀ b, motive (.bool b)) (number : ∀ n, motive (.number n))
    (string : ∀ s, motive (.string s))
    (sequence : ∀ items, (∀ item ∈ items, motive item) → motive (.sequence items))
    (mapping : ∀ members, (∀ m ∈ members, motive m.2) → motive (.mapping members))
    (function : ∀ id, motive (.function id))
    (custom : ∀ typeName primitive, motive primitive → motive (.custom typeName primitive))
    (v : Value) : motive v := by
  refine @Value.rec motive (fun items => ∀ item ∈ items, motive item)
    (fun members => ∀ m ∈ members, motive m.2) (fun m => motive m.2)
    undefined null bool number string sequence mapping function custom
    ?_ ?_ ?_ ?_ (fun _ _ h => h) v
  · simp
  · exact fun _ _ first rest => List.forall_mem_cons.2 ⟨first, rest⟩
  · simp
  · exact fun _ _ first rest => List.forall_mem_cons.2 ⟨first, rest⟩

@[elab_as_elim]
theorem Json.induction {motive : Json → Prop}
    (null : motive .null) (bool : ∀ b, motive (.bool b)) (number : ∀ n, motive (.number n))
    (string : ∀ s, motive (.string s))
    (array : ∀ items, (∀ item ∈ items, motive item) → motive (.array items))
    (object : ∀ members, (∀ m ∈ members, motive m.2) → motive (.object members))
    (j : Json) : motive j := by
  refine @Json.rec motive (fun items => ∀ item ∈ items, motive item)
    (fun members => ∀ m ∈ members, motive m.2) (fun m => motive m.2)
    null bool number string array object ?_ ?_ ?_ ?_ (fun _ _ h => h) j
  · simp
  · exact fun _ _ first rest => List.forall_mem_cons.2 ⟨first, rest⟩
  · simp
  · exact fun _ _ first rest => List.forall_mem_cons.2 ⟨first, rest⟩

@[elab_as_elim]
theorem FieldType.induction {motive : FieldType → Prop}
    (primitive : ∀ p, motive (.primitive p)) (union : ∀ u, motive (.union u))
    (nested : ∀ schema : Schema, (∀ field ∈ schema, motive field.2) → motive (.nested schema))
    (custom : ∀ c, motive (.custom c)) (type : FieldType) : motive type := by
  refine @FieldType.rec motive (fun schema => ∀ field ∈ schema, motive field.2)
    (fun field => motive field.2) primitive union nested custom ?_ ?_ (fun _ _ h => h) type
  · simp
  · exact fun _ _ first rest => List.forall_mem_cons.2 ⟨first, rest⟩

end RecordSchema
