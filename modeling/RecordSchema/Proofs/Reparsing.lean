import RecordSchema.Command.Run
import RecordSchema.Proofs.FixedPoint
import RecordSchema.Proofs.Rereading

namespace RecordSchema

theorem Value.Plain.reread_isContainer {v : Value} (h : v.Plain) :
    v.reread.isContainer = v.isContainer := by
  cases h with
  | number n =>
      cases finite : n.isFinite with
      | true =>
          obtain same | ⟨-, same⟩ := reread_number_of_finite finite
          · rw [same]
          · rw [same]; rfl
      | false => rw [reread_number_of_not_finite finite]; rfl
  | sequence plain => rw [reread_sequence plain]; rfl
  | mapping plain => rw [reread_mapping plain]; rfl
  | null | bool | string => rfl

theorem Primitive.coerce_reread {p : Primitive} {v : Value} (plain : v.Plain)
    (finite : ∀ n, v = .number n → n.isFinite = true) (kept : p.coerce v = v) :
    p.coerce v.reread = v.reread := by
  -- A value that a conversion keeps has the kind that the conversion makes.
  cases p with
  | object | function => rfl
  | boolean =>
      obtain ⟨b, rfl⟩ : ∃ b, v = .bool b := ⟨_, kept.symm⟩
      rfl
  | string =>
      obtain ⟨s, rfl⟩ : ∃ s, v = .string s := ⟨_, kept.symm⟩
      rfl
  | number =>
      obtain ⟨n, rfl⟩ : ∃ n, v = .number n := ⟨_, kept.symm⟩
      obtain same | ⟨-, same⟩ := Value.reread_number_of_finite (finite n rfl)
      · rw [same, kept]
      · rw [same]; rfl
  | array =>
      cases plain with
      | sequence plain => rw [Value.reread_sequence plain]; rfl
      | null | bool | number | string | mapping => cases kept

theorem TypeUnion.coerce_reread {u : TypeUnion} {v : Value} (plain : v.Plain)
    (finite : ∀ n, v = .number n → n.isFinite = true) (kept : u.coerce v = v) :
    u.coerce v.reread = v.reread := by
  by_cases accepted : u.accepts v = true
  · apply coerce_of_accepts
    obtain ⟨name, mem, admits⟩ := (accepts_iff u v).1 accepted
    exact (accepts_iff u _).2 ⟨name, mem, admits.reread plain finite⟩
  · rw [coerce, if_neg accepted] at kept
    cases convertible : u.members.findSome? TypeName.primitive? with
    | none => rw [coerce, convertible, ite_self]
    | some p =>
        rw [convertible] at kept
        exact absurd (kept ▸ accepts_converted convertible v) accepted

def CustomType.KeptInJson (c : CustomType) : Prop :=
  ∀ v : Value, v.Plain → (∀ n, v = .number n → n.isFinite = true) →
    (FieldType.custom c).convert v = .ok v → (FieldType.custom c).convert v.reread = .ok v.reread

namespace FieldType

theorem convert_reread {type : FieldType} (stable : type.EveryCustom CustomType.KeptInJson)
    {v : Value} (plain : v.Plain) (finite : ∀ n, v = .number n → n.isFinite = true)
    (kept : type.convert v = .ok v) : type.convert v.reread = .ok v.reread := by
  cases stable with
  | primitive p => exact congrArg Except.ok (p.coerce_reread plain finite (Except.ok.inj kept))
  | union u => exact congrArg Except.ok (u.coerce_reread plain finite (Except.ok.inj kept))
  | nested => rfl
  | custom stable => exact stable v plain finite kept

theorem coerce_reread_of_direct {type : FieldType}
    (stable : type.EveryCustom CustomType.KeptInJson) (direct : ∀ schema, type ≠ .nested schema)
    {v : Value} (plain : v.Plain) (kept : type.coerce v = .ok v) :
    type.coerce v.reread = .ok v.reread := by
  by_cases finite : ∀ n, v = .number n → n.isFinite = true
  · cases present : v.isNullish with
    | true =>
        have nullish := (Value.isNullish_iff v).1 present
        rw [Value.reread_of_nullish nullish, kept]
    | false =>
        rw [coerce_of_present direct present] at kept
        exact coerce_of_convert direct (convert_reread stable plain finite kept)
  · simp only [not_forall, Bool.not_eq_true] at finite
    obtain ⟨n, rfl, lost⟩ := finite
    rw [Value.reread_number_of_not_finite lost]
    exact coerce_of_nullish type (.inr rfl)

end FieldType

theorem Schema.coerce_of_leaf (schema : Schema) {v : Value} (leaf : v.isContainer = false) :
    schema.coerce v = .ok v := by
  apply coerce_of_not_mapping
  rintro members rfl
  cases leaf

theorem Schema.coerce_reread_of_fields {schema : Schema}
    (each : ∀ field ∈ schema, ∀ v : Value, v.Plain → field.2.coerce v = .ok v →
      field.2.coerce v.reread = .ok v.reread)
    {v : Value} (plain : v.Plain) (kept : schema.coerce v = .ok v) :
    schema.coerce v.reread = .ok v.reread := by
  have leaf (h : v.isContainer = false) : schema.coerce v.reread = .ok v.reread :=
    schema.coerce_of_leaf (plain.reread_isContainer.trans h)
  cases plain with
  | null | bool | number | string => exact leaf rfl
  | sequence plain => rw [Value.reread_sequence plain]; rfl
  | @mapping members plain =>
      obtain ⟨coerced, steps, same⟩ := (schema.coerce_mapping_eq_ok_iff members _).1 kept
      cases same
      rw [Value.reread_mapping plain]
      refine coerce_mapping_self (List.forall_mem_map.2 fun m mem field found => ?_)
      obtain ⟨-, step⟩ := List.forall₂_same.1 steps m mem
      rw [coerceMember, found] at step
      exact each field (mem_of_field? found) m.2 (plain m mem) step

namespace FieldType

theorem coerce_nested_of_leaf (schema : Schema) {v : Value} (leaf : v.isContainer = false) :
    coerce (.nested schema) v = .ok v := by
  rw [coerce_nested_of_not_sequence, schema.coerce_of_leaf leaf]
  rintro items rfl
  cases leaf

/-- What coercion keeps is read back from its JSON form as something that coercion keeps. -/
theorem coerce_reread {type : FieldType} (stable : type.EveryCustom CustomType.KeptInJson)
    {v : Value} (plain : v.Plain) (kept : type.coerce v = .ok v) :
    type.coerce v.reread = .ok v.reread := by
  induction type using FieldType.induction generalizing v with
  | primitive | union | custom => exact coerce_reread_of_direct stable (by simp) plain kept
  | nested schema ih =>
      cases stable with
      | nested stable =>
          have fields {v : Value} (plain : v.Plain) (kept : schema.coerce v = .ok v) :
              schema.coerce v.reread = .ok v.reread :=
            schema.coerce_reread_of_fields
              (fun field mem _ => ih field mem (stable field mem)) plain kept
          have leaf (h : v.isContainer = false) :
              coerce (.nested schema) v.reread = .ok v.reread :=
            coerce_nested_of_leaf schema (plain.reread_isContainer.trans h)
          cases plain with
          | null | bool | number | string => exact leaf rfl
          | mapping plain =>
              rw [coerce_nested_of_not_sequence schema (by simp)] at kept
              have again := fields (.mapping plain) kept
              rw [Value.reread_mapping plain] at again ⊢
              rw [coerce_nested_of_not_sequence schema (by simp), again]
          | sequence plain =>
              rw [coerce_nested_sequence] at kept
              obtain ⟨coerced, steps, same⟩ := Fallible.map_eq_ok.1 kept
              cases same
              have each := List.forall₂_same.1 (Fallible.mapM_eq_ok.1 steps)
              rw [Value.reread_sequence plain]
              refine coerce_sequence_self (List.forall_mem_map.2 fun item mem => ?_)
              exact fields (plain item mem) (each item mem)

end FieldType

theorem IntegerNumber.keptInJson : type.KeptInJson := by
  intro v plain finite kept
  obtain ⟨i, constructed, made⟩ := Fallible.map_eq_ok.1 kept
  obtain ⟨n, -, rfl⟩ := Fallible.map_eq_ok.1 constructed
  have whole : v = .number n.number := made.symm
  subst whole
  obtain same | ⟨-, same⟩ := Value.reread_number_of_finite (finite n.number rfl)
  · rw [same, convert_number n.isInteger]
  · rw [same, convert_number (Number.isInteger_zero false)]

theorem Schema.everyCustom_of_builtin {p : CustomType → Prop} (h : p IntegerNumber.type)
    {descriptor : Json} {schema : Schema} (compiled : ofJson .builtin descriptor = .ok schema) :
    schema.EveryCustom p :=
  everyCustom_of_ofJson (List.forall_mem_singleton.2 h) compiled

namespace Command

/-- Without validation a document is parsed as a value of a nested schema is coerced. -/
theorem parseValue_eq_ok_iff (schema : Schema) (v parsed : Value) :
    parseValue schema ⟨false⟩ v = .ok parsed ↔ (FieldType.nested schema).coerce v = .ok parsed := by
  have record (v w : Value) : Factory.parse ⟨some schema⟩ ⟨false⟩ v = .ok w ↔
      schema.coerce v = .ok w :=
    Factory.parse_unvalidated_eq_ok_iff schema v w
  by_cases sequence : ∃ items, v = .sequence items
  · obtain ⟨items, rfl⟩ := sequence
    rw [parseValue, FieldType.coerce_nested_sequence, Fallible.map_eq_ok, Fallible.map_eq_ok]
    simp only [Factory.parseAll, Fallible.mapM_eq_ok, record]
  · have single := not_exists.1 sequence
    rw [FieldType.coerce_nested_of_not_sequence schema single, ← record, parseValue]
    exact single

/-- What is parsed has a JSON form; and the document of that form is parsed again, to something of
the same form. -/
theorem parsed_form_stable {descriptor json : Json} {schema : Schema} {parsed : Value}
    (compiled : Schema.ofJson .builtin descriptor = .ok schema)
    (made : parseValue schema ⟨false⟩ (.ofJson json) = .ok parsed) :
    ∃ form, parsed.toJson? = some form ∧
      ∃ again, parseValue schema ⟨false⟩ (.ofJson form) = .ok again ∧
        again.toJson? = some form := by
  rw [parseValue_eq_ok_iff] at made
  have custom {p : CustomType → Prop} (h : p IntegerNumber.type) :
      (FieldType.nested schema).EveryCustom p :=
    .nested (Schema.everyCustom_of_builtin h compiled)
  have plain := (Value.ofJson_plain json).coerce (custom IntegerNumber.keptByJson) made
  have kept := FieldType.coerce_coerced (custom IntegerNumber.stable) made
  have again := FieldType.coerce_reread (custom IntegerNumber.keptInJson) plain kept
  obtain ⟨form, shown⟩ := plain.exists_toJson?
  rw [Value.reread_of_toJson? shown, ← parseValue_eq_ok_iff] at again
  exact ⟨form, shown, .ofJson form, again, Value.toJson?_ofJson shown⟩

/-- An infinite count is printed as null, and a negative zero as zero. -/
theorem parsed_form_stable_of_counts :
    let json := Json.array [.object [("count", .string "Infinity")],
      .object [("count", .string "-0"), ("note", .array [.null])], .string "12"]
    Schema.ofJson .builtin (.object [("count", .string "Number")]) = .ok (counting .required) ∧
    ∃ parsed, parseValue (counting .required) ⟨false⟩ (.ofJson json) = .ok parsed ∧
      parsed.toJson? = some (.array [.object [("count", .null)],
        .object [("count", .number (.integer 0)), ("note", .array [.null])], .string "12"]) ∧
    ∃ form, parsed.toJson? = some form ∧
      ∃ again, parseValue (counting .required) ⟨false⟩ (.ofJson form) = .ok again ∧
        again.toJson? = some form := by
  intro json
  have compiled : Schema.ofJson .builtin (.object [("count", .string "Number")]) =
      .ok (counting .required) := rfl
  have made : parseValue (counting .required) ⟨false⟩ (.ofJson json) =
      .ok (.sequence [counted (.number (.infinite false)),
        .mapping [("count", .number (.zero true)), ("note", .sequence [.null])], .string "12"]) :=
    rfl
  have infinite : (Number.infinite false).toJson = .null := rfl
  have zero : (Number.zero true).toJson = .number (.integer 0) := by
    simp [Number.toJson, Number.toInt?_zero, Number.safeInteger]
  refine ⟨compiled, _, made, ?_, parsed_form_stable compiled made⟩
  simp [counted, Value.toJson?, Value.itemsToJson, Value.membersToJson, infinite, zero]

end Command

end RecordSchema
