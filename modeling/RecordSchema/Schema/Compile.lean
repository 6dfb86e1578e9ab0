import RecordSchema.Schema.Basic

namespace RecordSchema

inductive TypeSpec where
  | compiled (type : FieldType)
  | union (text : String)

def TypeSpec.compile : TypeSpec → Except SchemaError FieldType
  | compiled type => .ok type
  | union text => (TypeUnion.parse text).map .union

namespace Schema

def buildAfter (seen : List String) : List (String × TypeSpec) → Except SchemaError Schema
  | [] => .ok []
  | (descriptor, spec) :: r => do
    let key ← FieldKey.parse descriptor
    if seen.contains key.name then
      throw (.duplicateField key.name)
    let type ← spec.compile
    return (key, type) :: (← buildAfter (key.name :: seen) r)

/-- Compiles fields: keys have names, and names differ also where marks do. -/
def build (fields : List (String × TypeSpec)) : Except SchemaError Schema :=
  buildAfter [] fields

end Schema

structure Registry where
  types : List CustomType

namespace Registry

def empty : Registry :=
  ⟨[]⟩

def register (registry : Registry) (type : CustomType) : Registry :=
  ⟨type :: registry.types⟩

def find? (registry : Registry) (name : String) : Option CustomType :=
  registry.types.find? fun type => type.name == name

def resolve (registry : Registry) (name : String) : Except SchemaError FieldType :=
  match Primitive.ofName? name with
  | some p => .ok (.primitive p)
  | none =>
    match registry.find? name with
    | some type => .ok (.custom type)
    | none => (TypeUnion.parse name).map .union

end Registry

namespace Schema

mutual

def fieldsOfJson (registry : Registry) :
    List (String × Json) → Except SchemaError (List (String × TypeSpec))
  | [] => .ok []
  | (descriptor, j) :: r => do
    let type ← typeOfJson registry descriptor j
    return (descriptor, .compiled type) :: (← fieldsOfJson registry r)

def typeOfJson (registry : Registry) (descriptor : String) : Json → Except SchemaError FieldType
  | .string name => registry.resolve name
  | .object members => do
    let fields ← fieldsOfJson registry members
    return .nested (← build fields)
  | j => .error (.invalidDescriptor descriptor j)

end

def ofJson (registry : Registry) : Json → Except SchemaError Schema
  | .object members => do build (← fieldsOfJson registry members)
  | _ => .error .notAnObject

end Schema

end RecordSchema
