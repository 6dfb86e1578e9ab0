import RecordSchema.Proofs.FirstMismatch

namespace RecordSchema

namespace Factory

theorem create_record {schema : Schema} {record : Value} {c : Container}
    (h : (ofSchema schema).create record = .ok c) : c.record = record := by
  rw [create_ofSchema] at h
  obtain ⟨-, -, rfl⟩ := Fallible.map_eq_ok.1 h
  rfl

theorem coerce_ofSchema (schema : Schema) (record : Value) :
    (ofSchema schema).coerce record = schema.coerce record :=
  rfl

theorem parseCreate_eq_ok_iff (schema : Schema) (record : Value) (c : Container) :
    (ofSchema schema).parseCreate record = .ok c ↔
      ∃ coerced, schema.coerce record = .ok coerced ∧ (ofSchema schema).create coerced = .ok c := by
  rw [parseCreate, coerce_ofSchema]
  cases schema.coerce record with
  | error e => simp
  | ok coerced => simp [Fallible.mapError_eq_ok]

theorem parse_unvalidated_eq_ok_iff (schema : Schema) (record parsed : Value) :
    (ofSchema schema).parse ⟨false⟩ record = .ok parsed ↔ schema.coerce record = .ok parsed := by
  rw [parse, if_neg (by decide), coerce_ofSchema, Fallible.mapError_eq_ok]

theorem parseCreate_eq_construction_iff (schema : Schema) (record : Value)
    (e : ConstructionError) :
    (ofSchema schema).parseCreate record = .error (.construction e) ↔
      schema.coerce record = .error e := by
  rw [parseCreate, coerce_ofSchema]
  cases schema.coerce record with
  | error d => simp
  | ok coerced =>
      cases created : (ofSchema schema).create coerced <;> simp [created, Except.mapError]

/-- Validation comes after coercion and does not hide what is refused. -/
theorem parse_eq_construction_iff (schema : Schema) (options : ParseOptions) (record : Value)
    (e : ConstructionError) :
    (ofSchema schema).parse options record = .error (.construction e) ↔
      schema.coerce record = .error e := by
  rw [parse]
  split
  · rw [Fallible.map_eq_error, parseCreate_eq_construction_iff]
  · rw [coerce_ofSchema]
    cases schema.coerce record <;> simp [Except.mapError]

theorem parse_eq_ok_iff (schema : Schema) (record parsed : Value) :
    (ofSchema schema).parse ⟨true⟩ record = .ok parsed ↔
      schema.coerce record = .ok parsed ∧ schema.Conforms parsed := by
  rw [parse, if_pos rfl, Fallible.map_eq_ok]
  simp only [parseCreate_eq_ok_iff]
  constructor
  · rintro ⟨c, ⟨coerced, steps, created⟩, rfl⟩
    rw [create_record created]
    exact ⟨steps, (create_eq_ok_iff schema coerced).1 ⟨c, created⟩⟩
  · rintro ⟨steps, conforms⟩
    obtain ⟨c, created⟩ := (create_eq_ok_iff schema parsed).2 conforms
    exact ⟨c, ⟨parsed, steps, created⟩, create_record created⟩

end Factory

end RecordSchema
