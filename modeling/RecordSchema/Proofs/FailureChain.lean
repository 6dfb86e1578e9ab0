import RecordSchema.Proofs.Offence

namespace RecordSchema

def Value.follow (fields : List Field) (v : Value) : Value :=
  fields.foldl (fun v field => v.member field.1.name) v

namespace Schema

inductive HoldsNested : Schema → Value → Value → Prop
  | here {schema inner : Schema} {record : Value} {key : FieldKey}
      (mem : (key, .nested inner) ∈ schema) : HoldsNested schema record (record.member key.name)
  | descend {schema inner : Schema} {record v : Value} {key : FieldKey}
      (mem : (key, .nested inner) ∈ schema)
      (mapping : ∃ members, record.member key.name = .mapping members)
      (rest : HoldsNested inner (record.member key.name) v) : HoldsNested schema record v

/-- Neither the record nor the value of a nested schema that is reached from it is a sequence. -/
structure SequenceFree (schema : Schema) (record : Value) : Prop where
  root : ∀ items, record ≠ .sequence items
  nested : ∀ v, schema.HoldsNested record v → ∀ items, v ≠ .sequence items

/-- Where the path of an error ends: at a type that is no nested schema, or at a nested schema whose
value is no mapping although its fields are content with it. -/
inductive Stops : FieldType → Value → Prop
  | leaf {type : FieldType} {v : Value} (h : ∀ inner, type ≠ .nested inner) : Stops type v
  | scalar {inner : Schema} {v : Value} (notMapping : ∀ members, v ≠ .mapping members)
      (content : inner.Conforms v) : Stops (.nested inner) v

/-- Fields each of which is the first to reject its value in the schema of the one before. -/
inductive FailureChain : Schema → Value → List Field → Prop
  | stop {schema : Schema} {record : Value} {field : Field}
      (first : schema.FirstRejecting record field)
      (stops : Stops field.2 (record.member field.1.name)) : FailureChain schema record [field]
  | step {schema inner : Schema} {record : Value} {key : FieldKey} {fields : List Field}
      (first : schema.FirstRejecting record (key, .nested inner))
      (rest : FailureChain inner (record.member key.name) fields) :
      FailureChain schema record ((key, .nested inner) :: fields)

theorem SequenceFree.member {schema inner : Schema} {record : Value} {key : FieldKey}
    (h : schema.SequenceFree record) (mem : (key, .nested inner) ∈ schema) :
    inner.SequenceFree (record.member key.name) := by
  have direct := h.nested _ (.here mem)
  refine ⟨direct, fun v holds => ?_⟩
  by_cases mapping : ∃ members, record.member key.name = .mapping members
  · exact h.nested v (.descend mem mapping holds)
  · have absent (name : String) : (record.member key.name).member name = .undefined := by
      cases shape : record.member key.name with
      | mapping members => exact absurd ⟨members, shape⟩ mapping
      | sequence items => exact absurd shape (direct items)
      | _ => rfl
    cases holds with
    | here => rw [absent]; simp
    | descend _ mapping' => rw [absent] at mapping'; simp at mapping'

theorem sequenceFree_of_members {schema : Schema} {record : Value}
    (root : ∀ items, record ≠ .sequence items)
    (members : ∀ (key : FieldKey) (inner : Schema), (key, .nested inner) ∈ schema →
      inner.SequenceFree (record.member key.name)) : schema.SequenceFree record := by
  refine ⟨root, fun v holds => ?_⟩
  cases holds with
  | here mem => exact (members _ _ mem).root
  | descend mem _ rest => exact (members _ _ mem).nested v rest

theorem FirstRejecting.mem {schema : Schema} {record : Value} {field : Field}
    (h : schema.FirstRejecting record field) : field ∈ schema := by
  obtain ⟨before, after, split, _⟩ := h.first
  simp [split]

theorem FirstRejecting.not_admits {schema : Schema} {record : Value} {field : Field}
    (h : schema.FirstRejecting record field) :
    ¬ field.2.Admits (record.member field.1.name) :=
  fun admits => h.rejects ((Field.content_iff _ _).2 (.inr admits))

theorem firstMismatch?_candidates {schema : Schema} {v : Value} (h : ∀ items, v ≠ .sequence items) :
    schema.firstMismatch? (Offence.candidates v) = schema.mismatch? v := by
  rw [Offence.candidates_eq_singleton h, firstMismatch?]
  cases found : schema.mismatch? v <;> simp [found]

/-- Without sequences the descent follows the chain of first rejecting fields. -/
theorem exists_failureChain (type : FieldType) {schema : Schema} {v : Value} {key : FieldKey}
    (free : schema.SequenceFree v) (first : schema.FirstRejecting v (key, type)) :
    ∃ front last, schema.FailureChain v (front ++ [last]) ∧
      ¬ last.2.Admits (v.follow (front ++ [last])) ∧
      (Offence.below type (v.memberOrFirst key.name)).under key =
        ⟨(front ++ [last]).map Prod.fst, last.2, v.follow (front ++ [last])⟩ := by
  rw [Value.memberOrFirst_eq_member _ free.root]
  induction type using FieldType.induction generalizing schema v key with
  | nested inner ih =>
      have inside := free.member first.mem
      have checked : inner.firstMismatch? (Offence.candidates (v.member key.name)) =
          inner.mismatch? (v.member key.name) := firstMismatch?_candidates inside.root
      cases found : inner.mismatch? (v.member key.name) with
      | none =>
          have content := (mismatch?_eq_none_iff inner _).1 found
          have notMapping (members : Record) : v.member key.name ≠ .mapping members := by
            intro shape
            refine first.not_admits ?_
            rw [shape] at content ⊢
            exact .mapping content
          rw [Offence.below_of_passing (checked.trans found)]
          exact ⟨[], (key, .nested inner), .stop first (.scalar notMapping content),
            first.not_admits, rfl⟩
      | some field =>
          have deeper := (mismatch?_eq_some_iff inner _ field).1 found
          obtain ⟨front, last, chain, rejected, offence⟩ := ih field deeper.mem inside deeper
          rw [Offence.below_of_mismatch (checked.trans found),
            Value.memberOrFirst_eq_member _ inside.root, offence]
          exact ⟨(key, .nested inner) :: front, last, .step first chain, rejected, rfl⟩
  | primitive | union | custom =>
      rw [Offence.below_of_not_nested _ (by simp)]
      exact ⟨[], (key, _), .stop first (.leaf (by simp)), first.not_admits, rfl⟩

end Schema

/-- Creation accepts exactly the conforming records. If no sequence is met, the error of another
record names the chain of first rejecting fields and shows the value found along it. -/
theorem create_reports_failureChain {schema : Schema} {record : Value}
    (free : schema.SequenceFree record) :
    ((∃ c, (Factory.ofSchema schema).create record = .ok c) ↔ schema.Conforms record) ∧
    (¬ schema.Conforms record → ∃ e front last,
      (Factory.ofSchema schema).create record = .error e ∧
      schema.FailureChain record (front ++ [last]) ∧
      e.field = Path.join ((front ++ [last]).map fun field => field.1.display) ∧
      e.expected = last.2 ∧ e.invalid = record.follow (front ++ [last]) ∧
      ¬ last.2.Admits e.invalid ∧ e.record = record ∧ e.schema = schema) := by
  refine ⟨Factory.create_eq_ok_iff schema record, fun fails => ?_⟩
  rw [← Schema.mismatch?_eq_none_iff, ← ne_eq, Option.ne_none_iff_exists'] at fails
  obtain ⟨field, found⟩ := fails
  have first := (Schema.mismatch?_eq_some_iff schema record field).1 found
  obtain ⟨front, last, chain, rejected, offence⟩ := Schema.exists_failureChain _ free first
  have failed := (Factory.create_eq_error_iff schema record _).2
    ((Schema.check_eq_error_iff record _).2 ⟨field, first, rfl⟩)
  rw [offence] at failed
  refine ⟨_, front, last, failed, chain, ?_, rfl, rfl, rejected, rfl, rfl⟩
  simp only [ValidationError.field, List.map_map, Function.comp_def]

def country : Schema :=
  [(⟨"active", .required⟩, .primitive .boolean)]

def address : Schema :=
  [(⟨"country", .leading⟩, .nested country)]

def addressed : Schema :=
  [(⟨"name", .required⟩, .primitive .string), (⟨"address", .trailing⟩, .nested address)]

def livesIn (country : Value) : Value :=
  .mapping [("name", .string "Jane"), ("address", .mapping [("country", country)])]

theorem sequenceFree_livesIn {v : Value} (h : ∀ items, v ≠ .sequence items) :
    addressed.SequenceFree (livesIn v) := by
  refine Schema.sequenceFree_of_members (by simp [livesIn]) fun key inner mem => ?_
  obtain ⟨rfl, rfl⟩ : key = ⟨"address", .trailing⟩ ∧ inner = address := by
    simpa [addressed] using mem
  refine Schema.sequenceFree_of_members ?_ fun key inner mem => ?_
  · simp [livesIn, Value.member, Value.get?, List.lookup_cons]
  obtain ⟨rfl, rfl⟩ : key = ⟨"country", .leading⟩ ∧ inner = country := by
    simpa [address] using mem
  exact Schema.sequenceFree_of_members h fun key inner mem => by simp [country] at mem

theorem create_reports_failureChain_of_scalar :
    addressed.SequenceFree (livesIn (.string "NL")) ∧
    ¬ addressed.Conforms (livesIn (.string "NL")) ∧
    ∃ e front last, (Factory.ofSchema addressed).create (livesIn (.string "NL")) = .error e ∧
      addressed.FailureChain (livesIn (.string "NL")) (front ++ [last]) ∧
      e.field = Path.join ((front ++ [last]).map fun field => field.1.display) ∧
      e.expected = last.2 ∧ e.invalid = (livesIn (.string "NL")).follow (front ++ [last]) ∧
      ¬ last.2.Admits e.invalid ∧ e.record = livesIn (.string "NL") ∧ e.schema = addressed := by
  have free : addressed.SequenceFree (livesIn (.string "NL")) := sequenceFree_livesIn (by simp)
  have fails : ¬ addressed.Conforms (livesIn (.string "NL")) := by
    rw [← Schema.mismatch?_eq_none_iff]
    have found : (addressed.mismatch? (livesIn (.string "NL"))).isSome = true := by decide
    exact fun none => by simp [none] at found
  exact ⟨free, fails, (create_reports_failureChain free).2 fails⟩

end RecordSchema
