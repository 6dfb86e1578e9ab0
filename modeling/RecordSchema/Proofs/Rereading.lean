import RecordSchema.Proofs.Coercion
import RecordSchema.Proofs.Parsing

namespace RecordSchema

theorem Value.reread_of_nullish {v : Value} (h : v = .undefined ∨ v = .null) : v.reread = v := by
  obtain rfl | rfl := h <;> rfl

theorem Primitive.Admits.reread {p : Primitive} {v : Value} (h : p.Admits v) (plain : v.Plain)
    (finite : ∀ n, v = .number n → n.isFinite = true) : p.Admits v.reread := by
  cases h with
  | boolean b => exact .boolean b
  | number n notNaN =>
      obtain same | ⟨-, same⟩ := Value.reread_number_of_finite (finite n rfl)
      · rw [same]
        exact .number n notNaN
      · rw [same]
        exact .number _ (by simp [Number.zero])
  | string s h => exact .string s h
  | function id => cases plain
  | object members =>
      cases plain with
      | mapping plain =>
          rw [Value.reread_mapping plain]
          exact .object _
  | array items =>
      cases plain with
      | sequence plain =>
          rw [Value.reread_sequence plain]
          exact .array _

theorem TypeName.Admits.reread {name : TypeName} {v : Value} (h : name.Admits v) (plain : v.Plain)
    (finite : ∀ n, v = .number n → n.isFinite = true) : name.Admits v.reread := by
  cases plain with
  | null => exact h
  | bool b => exact h
  | string s => exact h
  | number n =>
      obtain same | ⟨-, same⟩ := Value.reread_number_of_finite (finite n rfl)
      · rw [same]
        exact h
      · rw [same]
        cases h with
        | number => exact .number _
        | mixed => exact .mixed _ (by simp)
  | sequence plain =>
      rw [Value.reread_sequence plain]
      cases h with
      | sequence => exact .sequence _
      | array => exact .array _
      | mixed => exact .mixed _ (by simp)
  | mapping plain =>
      rw [Value.reread_mapping plain]
      cases h with
      | mapping => exact .mapping _
      | mixed => exact .mixed _ (by simp)

theorem FieldType.Admits.reread {type : FieldType}
    (kept : type.EveryCustom CustomType.KeptByJson) (direct : ∀ schema, type ≠ .nested schema)
    {v : Value} (h : type.Admits v) (plain : v.Plain)
    (finite : ∀ n, v = .number n → n.isFinite = true) : type.Admits v.reread := by
  cases h with
  | primitive h => exact .primitive (h.reread plain finite)
  | union mem h => exact .union mem (h.reread plain finite)
  | @mapping schema => exact absurd rfl (direct schema)
  | @sequence schema => exact absurd rfl (direct schema)
  | custom accepted =>
      cases kept with
      | custom kept => exact .custom (kept.accepts plain finite accepted)

/-- A field that has to be there, or one below it, holds a number that is not finite, where null
would not do. -/
inductive Field.LosesNumber : Field → Value → Prop
  | number {key : FieldKey} {type : FieldType} {n : Number} (required : key.optionality = .required)
      (lost : n.isFinite = false) (refused : type.accepts .null = false) :
      Field.LosesNumber (key, type) (.number n)
  | nested {key : FieldKey} {schema : Schema} {v record : Value} {field : Field}
      (part : record ∈ Offence.candidates v) (mem : field ∈ schema)
      (h : Field.LosesNumber field (record.member field.1.name)) :
      Field.LosesNumber (key, .nested schema) v

def Schema.LosesNumber (schema : Schema) (record : Value) : Prop :=
  ∃ field ∈ schema, Field.LosesNumber field (record.member field.1.name)

namespace Field

theorem LosesNumber.isContainer {field : Field} {v : Value} (h : LosesNumber field v)
    (other : ∀ n, v ≠ .number n) : v.isContainer = true := by
  induction h with
  | @number _ _ n => exact absurd rfl (other n)
  | @nested key schema v record field part mem h ih =>
      cases v with
      | mapping | sequence => rfl
      | number n => exact absurd rfl (other n)
      | undefined | null | bool | string | function | custom =>
          cases List.mem_singleton.1 part
          cases ih (by simp [Value.member, Value.get?])

theorem losesNumber_number_iff (key : FieldKey) (type : FieldType) (n : Number) :
    LosesNumber (key, type) (.number n) ↔
      key.optionality = .required ∧ n.isFinite = false ∧ type.accepts .null = false := by
  constructor
  · intro h
    cases h with
    | number required lost refused => exact ⟨required, lost, refused⟩
    | nested part mem h =>
        cases List.mem_singleton.1 part
        cases h.isContainer (by simp [Value.member, Value.get?])
  · rintro ⟨required, lost, refused⟩
    exact .number required lost refused

theorem losesNumber_nested_iff (key : FieldKey) (schema : Schema) {v : Value}
    (other : ∀ n, v ≠ .number n) : LosesNumber (key, .nested schema) v ↔
      ∃ record ∈ Offence.candidates v, schema.LosesNumber record := by
  constructor
  · intro h
    cases h with
    | @number _ _ n => exact absurd rfl (other n)
    | nested part mem h => exact ⟨_, part, _, mem, h⟩
  · rintro ⟨record, part, field, mem, h⟩
    exact .nested part mem h

theorem not_losesNumber_of_direct {key : FieldKey} {type : FieldType}
    (direct : ∀ schema, type ≠ .nested schema) {v : Value}
    (finite : ∀ n, v = .number n → n.isFinite = true) : ¬ LosesNumber (key, type) v := by
  intro h
  cases h with
  | number _ lost =>
      rw [finite _ rfl] at lost
      cases lost
  | @nested _ schema => exact direct schema rfl

theorem content_reread_of_not_finite (field : Field) {n : Number} (lost : n.isFinite = false) :
    Content field (Value.reread (.number n)) ↔ ¬ LosesNumber field (.number n) := by
  obtain ⟨key, type⟩ := field
  rw [Value.reread_number_of_not_finite lost, content_iff, losesNumber_number_iff,
    FieldKey.excuses_iff, ← FieldType.accepts_iff]
  cases key.optionality <;> cases type.accepts .null <;> simp [lost]

theorem content_reread_of_direct {key : FieldKey} {type : FieldType}
    (kept : type.EveryCustom CustomType.KeptByJson) (direct : ∀ schema, type ≠ .nested schema)
    {v : Value} (plain : v = .undefined ∨ v.Plain) (h : Content (key, type) v) :
    Content (key, type) v.reread ↔ ¬ LosesNumber (key, type) v := by
  by_cases finite : ∀ n, v = .number n → n.isFinite = true
  · refine iff_of_true ?_ (not_losesNumber_of_direct direct finite)
    cases h with
    | excused optional nullish =>
        rw [Value.reread_of_nullish nullish]
        exact .excused optional nullish
    | admitted admits =>
        obtain rfl | plain := plain
        · exact .admitted admits
        · exact .admitted (admits.reread kept direct plain finite)
  · simp only [not_forall, Bool.not_eq_true] at finite
    obtain ⟨n, rfl, lost⟩ := finite
    exact content_reread_of_not_finite _ lost

end Field

namespace Schema

theorem conforms_reread_of_fields {schema : Schema} {record : Value} (plain : record.Plain)
    (each : ∀ field ∈ schema, ∀ v, v = .undefined ∨ v.Plain → Field.Content field v →
      (Field.Content field v.reread ↔ ¬ Field.LosesNumber field v))
    (h : schema.Conforms record) : schema.Conforms record.reread ↔ ¬ schema.LosesNumber record := by
  rw [conforms_iff_content] at h
  rw [conforms_iff_content, LosesNumber]
  simp only [Value.reread_member plain, not_exists, not_and]
  refine forall_congr' fun field => imp_congr_right fun mem => ?_
  exact each field mem _ (plain.member _) (h field mem)

end Schema

namespace Field

theorem content_reread_of_nested {key : FieldKey} {schema : Schema} {v : Value} (plain : v.Plain)
    (fields : ∀ record : Value, record.Plain → schema.Conforms record →
      (schema.Conforms record.reread ↔ ¬ schema.LosesNumber record))
    (h : (FieldType.nested schema).Admits v) :
    Content (key, .nested schema) v.reread ↔ ¬ LosesNumber (key, .nested schema) v := by
  rw [losesNumber_nested_iff _ _ (by rintro n rfl; cases h), content_iff]
  cases h with
  | @mapping _ members conforms =>
      have whole := fields _ plain conforms
      cases plain with
      | mapping plain =>
          rw [Value.reread_mapping plain] at whole ⊢
          rw [FieldType.admits_mapping_iff, whole]
          simp [FieldKey.excuses, Value.isNullish, Offence.candidates]
  | @sequence _ items mappings each =>
      cases plain with
      | sequence plain =>
          rw [Value.reread_sequence plain, FieldType.admits_sequence_iff]
          simp only [FieldKey.excuses, Value.isNullish, Bool.and_false, Bool.false_eq_true,
            false_or, Offence.candidates, List.forall_mem_map, not_exists, not_and]
          refine forall_congr' fun item => imp_congr_right fun mem => ?_
          obtain ⟨members, rfl⟩ := mappings item mem
          have whole := fields _ (plain _ mem) (each _ mem)
          cases plain _ mem with
          | mapping inner =>
              rw [Value.reread_mapping inner] at whole ⊢
              rw [whole]
              simp

/-- What a field is content with is read back as such, unless a number is lost. -/
theorem content_reread_iff {key : FieldKey} {type : FieldType}
    (kept : type.EveryCustom CustomType.KeptByJson) {v : Value} (plain : v = .undefined ∨ v.Plain)
    (h : Content (key, type) v) : Content (key, type) v.reread ↔ ¬ LosesNumber (key, type) v := by
  induction type using FieldType.induction generalizing key v with
  | nested schema ih =>
      cases kept with
      | nested kept =>
          cases h with
          | excused optional nullish =>
              refine iff_of_true ?_ fun loses => ?_
              · rw [Value.reread_of_nullish nullish]
                exact .excused optional nullish
              · obtain rfl | rfl := nullish <;> cases loses.isContainer (by simp)
          | admitted admits =>
              obtain rfl | plain := plain
              · cases admits
              · refine content_reread_of_nested plain (fun record plain conforms => ?_) admits
                exact Schema.conforms_reread_of_fields plain
                  (fun field mem _ => ih field mem (kept field mem)) conforms
  | primitive | union | custom => exact content_reread_of_direct kept (by simp) plain h

end Field

namespace Schema

theorem conforms_reread_iff {schema : Schema} (kept : schema.EveryCustom CustomType.KeptByJson)
    {record : Value} (plain : record.Plain) (h : schema.Conforms record) :
    schema.Conforms record.reread ↔ ¬ schema.LosesNumber record :=
  conforms_reread_of_fields plain
    (fun field mem _ plain h => Field.content_reread_iff (kept field mem) plain h) h

end Schema

theorem Registry.builtin_keptByJson :
    ∀ c ∈ Registry.builtin.types, c.KeptByJson := by
  intro c mem
  cases List.mem_singleton.1 mem
  exact IntegerNumber.keptByJson

/-- What parsing with validation gives has a JSON form, and the record read back from that is
accepted unless the parsed record loses a number. -/
theorem parsed_form_accepted_iff {descriptor json : Json} {schema : Schema} {parsed : Value}
    (compiled : Schema.ofJson .builtin descriptor = .ok schema)
    (valid : (Factory.ofSchema schema).parse ⟨true⟩ (.ofJson json) = .ok parsed) :
    ∃ form, parsed.toJson? = some form ∧
      ((∃ c, (Factory.ofSchema schema).create (.ofJson form) = .ok c) ↔
        ¬ schema.LosesNumber parsed) := by
  have kept := Schema.everyCustom_of_ofJson Registry.builtin_keptByJson compiled
  obtain ⟨coerced, conforms⟩ := (Factory.parse_eq_ok_iff _ _ _).1 valid
  have plain := Schema.plain_of_coerce kept (Value.ofJson_plain json) coerced
  obtain ⟨form, shown⟩ := plain.exists_toJson?
  refine ⟨form, shown, ?_⟩
  rw [Factory.create_eq_ok_iff, ← Value.reread_of_toJson? shown]
  exact Schema.conforms_reread_iff kept plain conforms

def counting (mark : Optionality) : Schema :=
  [(⟨"count", mark⟩, .primitive .number)]

def counted (v : Value) : Value :=
  .mapping [("count", v)]

/-- An infinite count is read back as null, which a required field rejects. -/
theorem infinite_count_rejected :
    Schema.ofJson .builtin (.object [("count", .string "Number")]) = .ok (counting .required) ∧
    (Factory.ofSchema (counting .required)).parse ⟨true⟩
      (.ofJson (.object [("count", .string "Infinity")])) =
        .ok (counted (.number (.infinite false))) ∧
    (counted (.number (.infinite false))).toJson? = some (.object [("count", .null)]) ∧
    ¬ ∃ c, (Factory.ofSchema (counting .required)).create
      (.ofJson (.object [("count", .null)])) = .ok c := by
  refine ⟨rfl, rfl, rfl, ?_⟩
  rw [Factory.create_eq_ok_iff, ← Schema.mismatch?_eq_none_iff]
  have found : ((counting .required).mismatch?
      (.ofJson (.object [("count", .null)]))).isSome = true :=
    rfl
  exact fun none => by simp [none] at found

theorem infinite_optional_count_accepted :
    Schema.ofJson .builtin (.object [("count?", .string "Number")]) = .ok (counting .trailing) ∧
    (Factory.ofSchema (counting .trailing)).parse ⟨true⟩
      (.ofJson (.object [("count", .string "Infinity")])) =
        .ok (counted (.number (.infinite false))) ∧
    ∃ form, (counted (.number (.infinite false))).toJson? = some form ∧
      ∃ c, (Factory.ofSchema (counting .trailing)).create (.ofJson form) = .ok c := by
  have compiled : Schema.ofJson .builtin (.object [("count?", .string "Number")]) =
      .ok (counting .trailing) :=
    rfl
  have valid : (Factory.ofSchema (counting .trailing)).parse ⟨true⟩
      (.ofJson (.object [("count", .string "Infinity")])) =
        .ok (counted (.number (.infinite false))) :=
    rfl
  obtain ⟨form, shown, accepted⟩ := parsed_form_accepted_iff compiled valid
  refine ⟨compiled, valid, form, shown, accepted.2 ?_⟩
  rintro ⟨field, mem, loses⟩
  cases List.mem_singleton.1 mem
  exact absurd ((Field.losesNumber_number_iff _ _ _).1 loses).1 (by decide)

end RecordSchema
