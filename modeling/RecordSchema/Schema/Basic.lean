import RecordSchema.Path
import RecordSchema.Schema.Field

namespace RecordSchema

structure Instance where
  typeName : String
  primitive : Value

def Instance.toValue (i : Instance) : Value :=
  .custom i.typeName i.primitive

structure ConstructionError where
  typeName : String
  message : String
  deriving DecidableEq

def Value.isInstanceOf (typeName : String) : Value → Bool
  | .custom name _ => name == typeName
  | _ => false

structure CustomType where
  name : String
  construct : Value → Except ConstructionError Instance
  accepts : Value → Bool := Value.isInstanceOf name

inductive FieldType where
  | primitive (p : Primitive)
  | union (u : TypeUnion)
  | nested (schema : List (FieldKey × FieldType))
  | custom (c : CustomType)

abbrev Field := FieldKey × FieldType

abbrev Schema := List Field

namespace FieldType

def display : FieldType → String
  | primitive p => p.name
  | union u => u.text
  | nested _ => Primitive.object.name
  | custom c => c.name

def nested? : FieldType → Option Schema
  | nested schema => some schema
  | _ => none

mutual

/-- Custom types are equal when their names are. -/
def same : FieldType → FieldType → Bool
  | primitive p, primitive q => p == q
  | union u, union w => u == w
  | nested s, nested t => sameFields s t
  | custom c, custom d => c.name == d.name
  | _, _ => false

def sameFields : List (FieldKey × FieldType) → List (FieldKey × FieldType) → Bool
  | [], [] => true
  | (k, a) :: r, (l, b) :: s => k == l && same a b && sameFields r s
  | _, _ => false

end

end FieldType

namespace Schema

def same (s t : Schema) : Bool :=
  FieldType.sameFields s t

def field? (schema : Schema) (name : String) : Option Field :=
  schema.find? fun f => f.1.name == name

def names (schema : Schema) : List String :=
  schema.map fun f => f.1.name

def descend? (schema : Schema) : List String → Option Schema
  | [] => some schema
  | name :: r =>
    match (schema.field? name).bind fun f => f.2.nested? with
    | some inner => descend? inner r
    | none => none

def resolve? (schema : Schema) (path : String) : Option Schema :=
  schema.descend? (Path.segments path)

end Schema

end RecordSchema
