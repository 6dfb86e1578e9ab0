import RecordSchema.Proofs.Collisions
import RecordSchema.Proofs.Compilation
import RecordSchema.Proofs.FirstMismatch
import RecordSchema.Proofs.Lookup

namespace RecordSchema

inductive Value.LeadsTo : Value → List String → Value → Prop
  | here (members : Record) : LeadsTo (.mapping members) [] (.mapping members)
  | step {members : Record} {key : String} {path : List String} {w v : Value}
      (found : (Value.mapping members).get? key = some w) (rest : LeadsTo w path v) :
      LeadsTo (.mapping members) (key :: path) v

theorem Value.LeadsTo.start_mapping {record v : Value} {path : List String}
    (h : record.LeadsTo path v) : ∃ members, record = .mapping members := by
  cases h with
  | here members | @step members => exact ⟨members, rfl⟩

theorem Value.LeadsTo.descend?_eq {record v : Value} {path : List String}
    (h : record.LeadsTo path v) : record.descend? path = some v := by
  induction h with
  | here => rfl
  | step found _ ih => rw [descend?, found, Option.bind_some, ih]

namespace Schema

theorem descend?_cons_eq_some_iff {schema deep : Schema} {name : String} {path : List String} :
    schema.descend? (name :: path) = some deep ↔
      ∃ (field : Field) (inner : Schema), schema.field? name = some field ∧
        field.2 = .nested inner ∧ inner.descend? path = some deep := by
  have nested (type : FieldType) (inner : Schema) :
      type.nested? = some inner ↔ type = .nested inner := by
    cases type <;> simp [FieldType.nested?]
  rw [descend?]
  cases named : schema.field? name with
  | none => simp
  | some field =>
      cases below : field.2.nested? with
      | none =>
          have absent (inner : Schema) : field.2 ≠ .nested inner := by
            intro same
            rw [(nested _ inner).2 same] at below
            cases below
          simp [below, absent]
      | some inner =>
          have same := (nested field.2 inner).1 below
          simp [FieldType.nested?, same]

theorem Conforms.member_of_mapping {schema inner : Schema} {record : Value} {field : Field}
    (h : schema.Conforms record) (mem : field ∈ schema) (nested : field.2 = .nested inner)
    {members : Record} (found : record.get? field.1.name = some (.mapping members)) :
    inner.Conforms (.mapping members) := by
  have content := (conforms_iff_content schema record).1 h field mem
  rw [Value.member, found, Option.getD_some, Field.content_iff, nested,
    FieldType.admits_mapping_iff] at content
  rcases content with excused | conforms
  · rw [FieldKey.excuses_iff] at excused
    simp at excused
  · exact conforms

theorem Conforms.of_leadsTo {schema deep : Schema} {record v : Value} {path : List String}
    (h : schema.Conforms record) (resolved : schema.descend? path = some deep)
    (leads : record.LeadsTo path v) : deep.Conforms v := by
  -- The schema is followed down as the record is: each key of the path takes one step in both.
  induction leads generalizing schema with
  | here =>
      cases resolved
      exact h
  | step found rest ih =>
      obtain ⟨field, inner, named, nested, below⟩ := descend?_cons_eq_some_iff.1 resolved
      obtain ⟨members, rfl⟩ := rest.start_mapping
      obtain rfl := name_of_field? named
      exact ih (h.member_of_mapping (mem_of_field? named) nested found) below

end Schema

theorem Container.filter_startsWith (c : Container) (path : String) :
    (c.flat.filter fun entry => startsWith (path ++ ".") entry.1) =
      (c.entriesBelow path).map (Value.entryAt path) := by
  rw [entriesBelow]
  induction c.flat with
  | nil => rfl
  | cons entry r ih =>
      obtain ⟨key, v⟩ := entry
      cases after : afterStart? (path ++ ".") key with
      | none =>
          have other : startsWith (path ++ ".") key = false := by
            by_contra starts
            rw [Bool.not_eq_false, startsWith] at starts
            simp only [afterStart?, starts, if_true, reduceCtorEq] at after
          simp [other, after, ih]
      | some rest =>
          have split := (afterStart?_eq_some_iff _ key rest).1 after
          have starts : startsWith (path ++ ".") key = true := by
            simp [split, startsWith]
          simp [starts, after, ih, Value.entryAt, ← split]

namespace Factory

theorem createAt_ofSchema {schema inner : Schema} {path : String} (nonempty : path ≠ "")
    (resolved : schema.resolve? path = some inner) (record : Value) :
    (ofSchema schema).createAt path record = (inner.check record).map fun _ =>
      ⟨record, some schema, some inner, some path, record.flatten (some path)⟩ := by
  simp only [createAt, wrap, schemaAt, ofSchema, Path.base?_of_nonempty nonempty, Option.bind_some,
    resolved]
  cases inner.check record <;> rfl

/-- A record inside a record that a factory accepts is accepted at its path, against the schema that
the path resolves to; its flat view is what the whole flat view has below the path. -/
theorem createAt_agrees_with_create {schema inner : Schema} {record v : Value} {path : String}
    {whole : Container} (distinct : record.WellFormed) (dotFree : record.DotFree)
    (nonempty : path ≠ "") (resolved : schema.resolve? path = some inner)
    (leads : record.LeadsTo (Path.segments path) v)
    (created : (ofSchema schema).create record = .ok whole) :
    ∃ part, (ofSchema schema).createAt path v = .ok part ∧ part.subSchema = some inner ∧
      part.flat = whole.flat.filter fun entry => Container.startsWith (path ++ ".") entry.1 := by
  have conforms := (create_eq_ok_iff schema record).1 ⟨whole, created⟩
  have accepted : inner.check v = .ok () :=
    (Schema.check_eq_ok_iff v).2 (conforms.of_leadsTo resolved leads)
  rw [create_ofSchema] at created
  obtain ⟨-, -, rfl⟩ := Fallible.map_eq_ok.1 created
  have found := leads.descend?_eq
  refine ⟨⟨v, some schema, some inner, some path, v.flatten (some path)⟩, ?_, rfl, ?_⟩
  · rw [createAt_ofSchema nonempty resolved, accepted]
    rfl
  · let whole : Container := ⟨record, some schema, some schema, none, record.flatten none⟩
    have below : whole.entriesBelow path = v.flatten none := by
      rw [Container.entriesBelow_eq_flatten rfl distinct dotFree, found]
      rfl
    rw [Container.filter_startsWith, Value.flatten_at v nonempty, ← below]

def residence : Schema :=
  [(⟨"address", .required⟩,
    .nested [(⟨"country", .trailing⟩, .nested [(⟨"code", .required⟩, .primitive .string)])])]

def resident : Value :=
  .mapping [("address", .mapping [("countries", .sequence [.null]),
    ("country", .mapping [("code", .string "NO")])]), ("addressee", .bool true)]

theorem createAt_country :
    ∃ part, (ofSchema residence).createAt "address.country" (.mapping [("code", .string "NO")]) =
        .ok part ∧
      part.subSchema = some [(⟨"code", .required⟩, .primitive .string)] ∧
      part.flat = [("address.country.code", .string "NO")] := by
  have distinct : resident.WellFormed := by
    simp [resident, Value.WellFormed, Value.WellFormedMembers, Value.WellFormedItems, Members.names]
  have dotFree : resident.DotFree := by
    have leaves : Value.null.DotFree ∧ (Value.string "NO").DotFree ∧ (Value.bool true).DotFree :=
      ⟨.leaf rfl, .leaf rfl, .leaf rfl⟩
    simp [resident, Value.dotFree_mapping_iff, Value.dotFree_sequence_iff, Members.names, leaves]
  have leads : resident.LeadsTo (Path.segments "address.country")
      (.mapping [("code", .string "NO")]) :=
    .step rfl (.step rfl (.here _))
  have resolved : residence.resolve? "address.country" =
      some [(⟨"code", .required⟩, .primitive .string)] := rfl
  have created : (ofSchema residence).create resident =
      .ok ⟨resident, some residence, some residence, none, resident.flatten none⟩ := rfl
  exact createAt_agrees_with_create distinct dotFree (by decide) resolved leads created

end Factory

end RecordSchema
