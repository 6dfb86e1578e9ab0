import Mathlib.Data.List.Find
import RecordSchema.Container
import RecordSchema.Proofs.Conformance
import RecordSchema.Proofs.Fallible

namespace RecordSchema

def Offence.under (key : FieldKey) (inner : Offence) : Offence :=
  ⟨key :: inner.path, inner.expected, inner.invalid⟩

namespace Schema

def FailsAt (schema : Schema) (records : List Value) (i j : Nat) : Prop :=
  ∃ record field, records[i]? = some record ∧ schema[j]? = some field ∧
    ¬ Field.Content field (record.member field.1.name)

/-- The lexicographically least failing pair of a record and a field. -/
structure FirstFailure (schema : Schema) (records : List Value) (i j : Nat) : Prop where
  fails : schema.FailsAt records i j
  least : ∀ k l, schema.FailsAt records k l → i < k ∨ (i = k ∧ j ≤ l)

variable {schema : Schema} {records : List Value}

theorem FailsAt.not_conforms {i j : Nat} {record : Value} (h : schema.FailsAt records i j)
    (at_i : records[i]? = some record) : ¬ schema.Conforms record := by
  obtain ⟨other, field, here, at_j, rejects⟩ := h
  rw [at_i] at here
  cases here
  exact fun conforms => rejects
    ((conforms_iff_content _ _).1 conforms field (List.mem_of_getElem? at_j))

theorem FirstFailure.unique {i j k l : Nat} (h : schema.FirstFailure records i j)
    (h' : schema.FirstFailure records k l) : i = k ∧ j = l := by
  have hle := h.least k l h'.fails
  have hge := h'.least i j h.fails
  omega

theorem firstFailure_of_split (before after : List Value) {record : Value} {field : Field}
    (conform : ∀ r ∈ before, schema.Conforms r) (first : schema.FirstRejecting record field) :
    ∃ j, schema.FirstFailure (before ++ record :: after) before.length j ∧
      schema[j]? = some field := by
  obtain ⟨rejects, front, back, split, content⟩ := first
  have here : (before ++ record :: after)[before.length]? = some record := by simp
  have at_j : schema[front.length]? = some field := by simp [split]
  refine ⟨front.length, ⟨⟨record, field, here, at_j, rejects⟩, ?_⟩, at_j⟩
  intro k l h
  rcases Nat.lt_trichotomy k before.length with hk | rfl | hk
  · have earlier : (before ++ record :: after)[k]? = some before[k] := by
      rw [List.getElem?_append_left hk, List.getElem?_eq_getElem hk]
    exact absurd (conform _ (List.getElem_mem hk)) (h.not_conforms earlier)
  · refine .inr ⟨rfl, ?_⟩
    by_contra hl
    rw [Nat.not_le] at hl
    obtain ⟨other, failing, here', at_l, fails⟩ := h
    rw [here] at here'
    cases here'
    rw [split, List.getElem?_append_left hl] at at_l
    exact fails (content failing (List.mem_of_getElem? at_l))
  · exact .inl hk

theorem split_of_firstMismatch? {field : Field} (h : schema.firstMismatch? records = some field) :
    ∃ before record after, records = before ++ record :: after ∧
      (∀ r ∈ before, schema.Conforms r) ∧ schema.FirstRejecting record field := by
  obtain ⟨before, record, after, split, mismatch, none⟩ := List.findSome?_eq_some_iff.1 h
  exact ⟨before, record, after, split, fun r mem => (mismatch?_eq_none_iff schema r).1 (none r mem),
    (mismatch?_eq_some_iff schema record field).1 mismatch⟩

theorem firstMismatch?_eq_some_iff (field : Field) :
    schema.firstMismatch? records = some field ↔
      ∃ i j, schema.FirstFailure records i j ∧ schema[j]? = some field := by
  have least {found : Field} (h : schema.firstMismatch? records = some found) :
      ∃ i j, schema.FirstFailure records i j ∧ schema[j]? = some found := by
    obtain ⟨before, record, after, rfl, conform, first⟩ := split_of_firstMismatch? h
    obtain ⟨j, failure, at_j⟩ := firstFailure_of_split before after conform first
    exact ⟨before.length, j, failure, at_j⟩
  refine ⟨least, ?_⟩
  rintro ⟨i, j, failure, at_j⟩
  cases h : schema.firstMismatch? records with
  | none =>
      obtain ⟨record, _, at_i, _⟩ := failure.fails
      exact absurd ((firstMismatch?_eq_none_iff schema records).1 h record
        (List.mem_of_getElem? at_i)) (failure.fails.not_conforms at_i)
  | some found =>
      obtain ⟨k, l, other, at_l⟩ := least h
      obtain ⟨rfl, rfl⟩ := failure.unique other
      rw [at_j] at at_l
      exact at_l.symm

theorem firstMismatch?_of_split (before after : List Value) {record : Value} {field : Field}
    (conform : ∀ r ∈ before, schema.Conforms r) (first : schema.FirstRejecting record field) :
    schema.firstMismatch? (before ++ record :: after) = some field := by
  obtain ⟨j, failure, at_j⟩ := firstFailure_of_split before after conform first
  exact (firstMismatch?_eq_some_iff field).2 ⟨before.length, j, failure, at_j⟩

/-- Records that no field tells apart have the same first mismatch. -/
theorem firstMismatch?_congr {record other : Value}
    (each : ∀ field ∈ schema, rejects record field = rejects other field) :
    schema.firstMismatch? [record] = schema.firstMismatch? [other] := by
  have alike : schema.mismatch? record = schema.mismatch? other := List.find?_congr each
  rw [firstMismatch?, List.findSome?_cons, alike]
  rfl

theorem check_eq_ok_iff (record : Value) :
    schema.check record = .ok () ↔ schema.Conforms record := by
  rw [← mismatch?_eq_none_iff, check]
  cases schema.mismatch? record <;> simp

theorem check_eq_error_iff (record : Value) (e : ValidationError) :
    schema.check record = .error e ↔ ∃ field, schema.FirstRejecting record field ∧
      e = ⟨(Offence.below field.2 (record.memberOrFirst field.1.name)).under field.1,
        record, schema⟩ := by
  simp only [← mismatch?_eq_some_iff, check]
  cases schema.mismatch? record with
  | none => simp
  | some field => simp [Offence.under, eq_comm]

end Schema

namespace Factory

theorem create_ofSchema (schema : Schema) (record : Value) :
    (ofSchema schema).create record = (schema.check record).map fun _ =>
      ⟨record, some schema, some schema, none, record.flatten none⟩ := by
  simp only [create, wrap, schemaAt, ofSchema, Path.base?, Option.filter_none]
  cases schema.check record <;> rfl

theorem create_eq_ok_iff (schema : Schema) (record : Value) :
    (∃ c, (ofSchema schema).create record = .ok c) ↔ schema.Conforms record := by
  rw [← Schema.check_eq_ok_iff, create_ofSchema]
  cases schema.check record <;> simp [Except.map]

theorem create_eq_error_iff (schema : Schema) (record : Value) (e : ValidationError) :
    (ofSchema schema).create record = .error e ↔ schema.check record = .error e := by
  rw [create_ofSchema]
  cases schema.check record <;> simp [Except.map]

theorem createAll_eq_error_iff (schema : Schema) (records : List Value) (e : ValidationError) :
    (ofSchema schema).createAll records = .error e ↔
      ∃ before record after, records = before ++ record :: after ∧
        (∀ r ∈ before, schema.Conforms r) ∧ schema.check record = .error e := by
  simp only [createAll, Fallible.mapM_eq_error, create_eq_ok_iff, create_eq_error_iff]

end Factory

/-- Validation passes exactly the lists of conforming records, and otherwise reports the field of
the least failing pair. Wrapping the records one by one fails exactly on the other lists, and the
path of its error starts with the descriptor of that field. -/
theorem validation_reports_least_failure (schema : Schema) (records : List Value) :
    (schema.firstMismatch? records = none ↔ ∀ record ∈ records, schema.Conforms record) ∧
    (∀ field, schema.firstMismatch? records = some field ↔
      ∃ i j, schema.FirstFailure records i j ∧ schema[j]? = some field) ∧
    ((∃ e, (Factory.ofSchema schema).createAll records = .error e) ↔
      ∃ field, schema.firstMismatch? records = some field) ∧
    (∀ e, (Factory.ofSchema schema).createAll records = .error e →
      ∃ field rest, schema.firstMismatch? records = some field ∧ e.path = field.1 :: rest ∧
        e.field = Path.join (field.1.display :: rest.map FieldKey.display)) := by
  have reported (e : ValidationError)
      (h : (Factory.ofSchema schema).createAll records = .error e) :
      ∃ field rest, schema.firstMismatch? records = some field ∧ e.path = field.1 :: rest ∧
        e.field = Path.join (field.1.display :: rest.map FieldKey.display) := by
    obtain ⟨before, record, after, rfl, conform, fails⟩ :=
      (Factory.createAll_eq_error_iff schema records e).1 h
    obtain ⟨field, first, rfl⟩ := (Schema.check_eq_error_iff record e).1 fails
    exact ⟨field, _, Schema.firstMismatch?_of_split before after conform first, rfl, rfl⟩
  refine ⟨Schema.firstMismatch?_eq_none_iff schema records, Schema.firstMismatch?_eq_some_iff,
    ⟨?_, ?_⟩, reported⟩
  · rintro ⟨e, h⟩
    obtain ⟨field, _, mismatch, _⟩ := reported e h
    exact ⟨field, mismatch⟩
  · rintro ⟨field, h⟩
    obtain ⟨before, record, after, rfl, conform, first⟩ := Schema.split_of_firstMismatch? h
    obtain ⟨e, fails⟩ : ∃ e, schema.check record = .error e :=
      ⟨_, (Schema.check_eq_error_iff record _).2 ⟨field, first, rfl⟩⟩
    exact ⟨e, (Factory.createAll_eq_error_iff schema _ e).2
      ⟨before, record, after, rfl, conform, fails⟩⟩

end RecordSchema
