import RecordSchema.Schema.Basic
import RecordSchema.Value.Conversion

namespace RecordSchema

def Primitive.coerce (p : Primitive) (v : Value) : Value :=
  match p with
  | boolean => .bool v.toBool
  | number => .number v.toNumber
  | string => .string v.toText
  | object => v
  | function => v
  | array =>
    match v with
    | .sequence items => .sequence items
    | v => .sequence [v]

def TypeName.primitive? : TypeName → Option Primitive
  | string => some .string
  | number => some .number
  | boolean => some .boolean
  | _ => none

def TypeUnion.coerce (union : TypeUnion) (v : Value) : Value :=
  if union.accepts v then v
  else match union.members.findSome? TypeName.primitive? with
    | some p => p.coerce v
    | none => v

namespace FieldType

def convert (type : FieldType) (v : Value) : Except ConstructionError Value :=
  match type with
  | primitive p => .ok (p.coerce v)
  | union u => .ok (u.coerce v)
  | nested _ => .ok v
  | custom c => (c.construct v).map Instance.primitive

mutual

def coerce (type : FieldType) : Value → Except ConstructionError Value
  | .undefined => .ok .undefined
  | .null => .ok .null
  | .mapping members =>
    match type with
    | nested schema => do return .mapping (← coerceMembers schema members)
    | type => type.convert (.mapping members)
  | .sequence items =>
    match type with
    | nested schema => do return .sequence (← coerceItems schema items)
    | type => type.convert (.sequence items)
  | v => type.convert v

def coerceMembers (schema : List (FieldKey × FieldType)) :
    List (String × Value) → Except ConstructionError (List (String × Value))
  | [] => .ok []
  | (k, v) :: r => do
    let coerced ←
      match Schema.field? schema k with
      | some field => coerce field.2 v
      | none => .ok v
    return (k, coerced) :: (← coerceMembers schema r)

def coerceItems (schema : List (FieldKey × FieldType)) :
    List Value → Except ConstructionError (List Value)
  | [] => .ok []
  | .mapping members :: r => do
    let coerced ← coerceMembers schema members
    return .mapping coerced :: (← coerceItems schema r)
  | v :: r => do return v :: (← coerceItems schema r)

end

end FieldType

def Schema.coerce (schema : Schema) : Value → Except ConstructionError Value
  | .mapping members => do return .mapping (← FieldType.coerceMembers schema members)
  | v => .ok v

end RecordSchema
