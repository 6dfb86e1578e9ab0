import RecordSchema.Proofs.FirstMismatch

namespace RecordSchema

theorem Value.memberOrFirst_eq_member (key : String) {v : Value}
    (h : ∀ items, v ≠ .sequence items) : v.memberOrFirst key = v.member key := by
  unfold memberOrFirst member
  cases v.get? key with
  | some found => rfl
  | none =>
      cases v with
      | sequence items => exact absurd rfl (h items)
      | _ => rfl

namespace Offence

theorem candidates_eq_singleton {v : Value} (h : ∀ items, v ≠ .sequence items) :
    candidates v = [v] := by
  cases v with
  | sequence items => exact absurd rfl (h items)
  | _ => rfl

theorem below_of_not_nested {type : FieldType} (v : Value) (h : ∀ schema, type ≠ .nested schema) :
    below type v = ⟨[], type, v⟩ := by
  rw [below]
  exact h

theorem below_of_passing {schema : Schema} {v : Value}
    (h : schema.firstMismatch? (candidates v) = none) :
    below (.nested schema) v = ⟨[], .nested schema, v⟩ := by
  rw [below]
  split
  · next found => rw [h] at found; cases found
  · rfl

theorem below_of_mismatch {schema : Schema} {v : Value} {field : Field}
    (h : schema.firstMismatch? (candidates v) = some field) :
    below (.nested schema) v = (below field.2 (v.memberOrFirst field.1.name)).under field.1 := by
  rw [below]
  split
  · next found => rw [h] at found; cases found; rfl
  · next found => rw [h] at found; cases found

end Offence

def Value.lookUp (fields : List Field) (v : Value) : Value :=
  fields.foldl (fun v field => v.memberOrFirst field.1.name) v

inductive Schema.NestedAt : Schema → List Field → Schema → Prop
  | here (schema : Schema) : NestedAt schema [] schema
  | descend {schema inner owner : Schema} {key : FieldKey} {fields : List Field}
      (mem : (key, .nested inner) ∈ schema) (rest : NestedAt inner fields owner) :
      NestedAt schema ((key, .nested inner) :: fields) owner

namespace Offence

def recordsAt (checked : List Value) (v : Value) : List Field → List Value
  | [] => checked
  | front => candidates (v.lookUp front)

/-- The path of an offence is `front` and then `last`, which is the first field to reject its member
of `failing`, the first record to fail where `last` is checked. The value shown is looked up in what
is found along `front`. -/
structure Reports (schema : Schema) (checked : List Value) (v : Value) (front : List Field)
    (last : Field) (failing : Value) (o : Offence) : Prop where
  path : o.path = (front ++ [last]).map Prod.fst
  expected : o.expected = last.2
  invalid : o.invalid = (v.lookUp front).memberOrFirst last.1.name
  rejecting : ∃ owner before after, schema.NestedAt front owner ∧
    recordsAt checked v front = before ++ failing :: after ∧
    (∀ r ∈ before, owner.Conforms r) ∧ owner.FirstRejecting failing last

theorem reports_last {schema : Schema} {checked : List Value} {field : Field} (v : Value)
    (h : schema.firstMismatch? checked = some field) :
    ∃ failing, Reports schema checked v [] field failing
      (under field.1 ⟨[], field.2, v.memberOrFirst field.1.name⟩) := by
  obtain ⟨before, failing, after, split, conform, first⟩ := Schema.split_of_firstMismatch? h
  exact ⟨failing, rfl, rfl, rfl, schema, before, after, .here schema, split, conform, first⟩

theorem Reports.step {schema inner : Schema} {checked : List Value} {v : Value} {key : FieldKey}
    {front : List Field} {last : Field} {failing : Value} {o : Offence}
    (mem : (key, .nested inner) ∈ schema)
    (h : Reports inner (candidates (v.memberOrFirst key.name)) (v.memberOrFirst key.name)
      front last failing o) :
    Reports schema checked v ((key, .nested inner) :: front) last failing (o.under key) := by
  obtain ⟨owner, before, after, nested, split, conform, first⟩ := h.rejecting
  refine ⟨congrArg (key :: ·) h.path, h.expected, h.invalid,
    owner, before, after, .descend mem nested, ?_, conform, first⟩
  rw [← split]
  cases front <;> rfl

/-- Each step of the descent goes through a field that fails, whatever value is looked up. -/
theorem reports_of_mismatch (type : FieldType) {schema : Schema} {checked : List Value}
    {key : FieldKey} (v : Value) (h : schema.firstMismatch? checked = some (key, type)) :
    ∃ front last failing, Reports schema checked v front last failing
      ((below type (v.memberOrFirst key.name)).under key) := by
  induction type using FieldType.induction generalizing schema checked key v with
  | nested inner ih =>
      cases found : inner.firstMismatch? (candidates (v.memberOrFirst key.name)) with
      | none =>
          rw [below_of_passing found]
          exact ⟨[], (key, .nested inner), reports_last v h⟩
      | some field =>
          rw [below_of_mismatch found]
          obtain ⟨front, last, failing, reports⟩ :=
            ih field (Schema.mem_of_firstMismatch? found) _ found
          exact ⟨_, last, failing, reports.step (Schema.mem_of_firstMismatch? h)⟩
  | primitive | union | custom =>
      rw [below_of_not_nested _ (by simp)]
      exact ⟨[], (key, _), reports_last v h⟩

/-- The value shown is rejected unless it comes out of a sequence, and from another place than the
record that failed. -/
theorem Reports.rejected {schema : Schema} {v failing : Value} {front : List Field} {last : Field}
    {o : Offence} (h : Reports schema [v] v front last failing o)
    (accepted : o.expected.accepts o.invalid = true) :
    (∃ items, v.lookUp front = .sequence items) ∧ o.invalid ≠ failing.member last.1.name := by
  obtain ⟨owner, before, after, _, split, _, first⟩ := h.rejecting
  have elsewhere : o.invalid ≠ failing.member last.1.name := by
    intro same
    rw [same, h.expected, FieldType.accepts_iff] at accepted
    exact first.rejects ((Field.content_iff _ _).2 (.inr accepted))
  refine ⟨?_, elsewhere⟩
  by_contra direct
  simp only [not_exists] at direct
  have single : recordsAt [v] v front = [v.lookUp front] := by
    cases front with
    | nil => rfl
    | cons => exact candidates_eq_singleton direct
  have here : failing = v.lookUp front := by
    rw [single] at split
    have mem : failing ∈ [v.lookUp front] := by simp [split]
    exact List.mem_singleton.1 mem
  exact elsewhere (by rw [h.invalid, here, Value.memberOrFirst_eq_member _ direct])

end Offence

/-- The error of a record names the last field of its path and shows what is looked up there. The
type of that field rejects the value shown, unless the value was looked up in a sequence and is not
the member of the record that failed. -/
theorem shown_value_rejected {schema : Schema} {record : Value} {e : ValidationError}
    (h : (Factory.ofSchema schema).create record = .error e) :
    ∃ front last failing,
      Offence.Reports schema [record] record front last failing e.toOffence ∧
      (e.expected.accepts e.invalid = true →
        (∃ items, record.lookUp front = .sequence items) ∧
          e.invalid ≠ failing.member last.1.name) := by
  rw [Factory.create_eq_error_iff, Schema.check_eq_error_iff] at h
  obtain ⟨⟨key, type⟩, first, rfl⟩ := h
  have mismatch : schema.firstMismatch? [record] = some (key, type) :=
    Schema.firstMismatch?_of_split [] [] (by simp) first
  obtain ⟨front, last, failing, reports⟩ := Offence.reports_of_mismatch type record mismatch
  exact ⟨front, last, failing, reports, reports.rejected⟩

def paid : Field :=
  (⟨"paid", .required⟩, .primitive .boolean)

def paidVisits : Field :=
  (⟨"visits", .required⟩, .nested [paid])

def visitsPaid (marks : List Value) : Value :=
  .mapping [("visits", .sequence (marks.map fun v => .mapping [("paid", v)]))]

theorem create_visitsPaid {first : Value} {rest : List Value}
    (outer : Schema.mismatch? [paidVisits] (visitsPaid (first :: rest)) = some paidVisits)
    (inner : Schema.firstMismatch? [paid]
      (Offence.candidates ((visitsPaid (first :: rest)).member "visits")) = some paid) :
    (Factory.ofSchema [paidVisits]).create (visitsPaid (first :: rest)) =
      .error ⟨⟨[paidVisits.1, paid.1], .primitive .boolean, first⟩, visitsPaid (first :: rest),
        [paidVisits]⟩ := by
  rw [Factory.create_eq_error_iff, Schema.check_eq_error_iff]
  refine ⟨paidVisits, (Schema.mismatch?_eq_some_iff _ _ _).1 outer, ?_⟩
  have leaf : Offence.below paid.2 first = ⟨[], paid.2, first⟩ :=
    Offence.below_of_not_nested first (by simp [paid])
  have below : Offence.below paidVisits.2
      ((visitsPaid (first :: rest)).memberOrFirst paidVisits.1.name) = ⟨[paid.1], paid.2, first⟩ :=
    (Offence.below_of_mismatch inner).trans (congrArg (Offence.under paid.1) leaf)
  rw [below]
  rfl

/-- The second item fails, and the value of the first one is shown. -/
theorem passing_value_shown :
    ∃ e, (Factory.ofSchema [paidVisits]).create (visitsPaid [.bool true, .string "no"]) = .error e ∧
      e.field = "visits.paid" ∧ e.invalid = .bool true ∧ e.expected.accepts e.invalid = true :=
  ⟨_, create_visitsPaid rfl rfl, rfl, rfl, rfl⟩

theorem shown_value_rejected_of_first_item :
    ∃ e, (Factory.ofSchema [paidVisits]).create (visitsPaid [.string "no", .bool true]) = .error e ∧
      e.invalid = .string "no" ∧ e.expected.accepts e.invalid = false ∧
      ∃ front last failing, Offence.Reports [paidVisits] [visitsPaid [.string "no", .bool true]]
          (visitsPaid [.string "no", .bool true]) front last failing e.toOffence ∧
        (e.expected.accepts e.invalid = true →
          (∃ items, (visitsPaid [.string "no", .bool true]).lookUp front = .sequence items) ∧
            e.invalid ≠ failing.member last.1.name) :=
  ⟨_, create_visitsPaid rfl rfl, rfl, rfl, shown_value_rejected (create_visitsPaid rfl rfl)⟩

end RecordSchema
