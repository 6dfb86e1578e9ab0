import RecordSchema.Schema.Basic
import RecordSchema.Value.Json

namespace RecordSchema

def FieldKey.excuses (key : FieldKey) (v : Value) : Bool :=
  key.isOptional && v.isNullish

namespace FieldType

mutual

def accepts : FieldType → Value → Bool
  | primitive p, v => p.accepts v
  | union u, v => u.accepts v
  | nested schema, v =>
    match v with
    | .mapping _ => conforms schema v
    | .sequence items => items.all fun item => item.isMapping && conforms schema item
    | _ => false
  | custom c, v => c.accepts v

def conforms : List (FieldKey × FieldType) → Value → Bool
  | [], _ => true
  | (key, type) :: r, record =>
    (key.excuses (record.member key.name) || accepts type (record.member key.name)) &&
      conforms r record

end

end FieldType

namespace Schema

def rejects (record : Value) (field : Field) : Bool :=
  let v := record.member field.1.name
  !(field.1.excuses v || field.2.accepts v)

def mismatch? (schema : Schema) (record : Value) : Option Field :=
  schema.find? (rejects record)

def firstMismatch? (schema : Schema) (records : List Value) : Option Field :=
  records.findSome? schema.mismatch?

theorem mem_of_firstMismatch? {schema : Schema} {records : List Value} {field : Field}
    (h : schema.firstMismatch? records = some field) : field ∈ schema := by
  obtain ⟨record, _, found⟩ := List.exists_of_findSome?_eq_some h
  exact List.mem_of_find?_eq_some found

end Schema

structure Offence where
  path : List FieldKey
  expected : FieldType
  invalid : Value

namespace Offence

def candidates : Value → List Value
  | .sequence items => items
  | v => [v]

/-- Follows the first mismatch of each nested schema down, through the first item where the path
enters a sequence that has no member of that name. -/
def below (expected : FieldType) (invalid : Value) : Offence :=
  match expected with
  | .nested schema =>
    match _h : Schema.firstMismatch? schema (candidates invalid) with
    | some (key, type) =>
      let inner := below type (invalid.memberOrFirst key.name)
      ⟨key :: inner.path, inner.expected, inner.invalid⟩
    | none => ⟨[], .nested schema, invalid⟩
  | type => ⟨[], type, invalid⟩
termination_by sizeOf expected
decreasing_by
  have := List.sizeOf_lt_of_mem (Schema.mem_of_firstMismatch? _h)
  simp only [FieldType.nested.sizeOf_spec, Prod.mk.sizeOf_spec] at *
  omega

end Offence

structure ValidationError extends Offence where
  record : Value
  schema : Schema

namespace ValidationError

def field (e : ValidationError) : String :=
  Path.join (e.path.map FieldKey.display)

def message (e : ValidationError) : String :=
  "The field " ++ e.field ++ " should be a " ++ e.expected.display ++
    " (" ++ e.invalid.literal ++ ")"

end ValidationError

def Schema.check (schema : Schema) (record : Value) : Except ValidationError Unit :=
  match schema.mismatch? record with
  | none => .ok ()
  | some (key, type) =>
    let inner := Offence.below type (record.memberOrFirst key.name)
    .error ⟨⟨key :: inner.path, inner.expected, inner.invalid⟩, record, schema⟩

end RecordSchema
