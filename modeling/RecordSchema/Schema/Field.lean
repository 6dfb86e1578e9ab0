import RecordSchema.Json.Text
import RecordSchema.Text.Blank
import RecordSchema.Value.Basic

namespace RecordSchema

inductive SchemaError where
  | emptyFieldName
  | duplicateField (name : String)
  | unknownTypeName (name union : String)
  | invalidDescriptor (field : String) (found : Json)
  | notAnObject

def SchemaError.message : SchemaError → String
  | emptyFieldName => "field descriptor cannot be empty"
  | duplicateField name => "duplicate field in schema: " ++ name
  | unknownTypeName name union => "unknown type name '" ++ name ++ "' in '" ++ union ++ "'"
  | invalidDescriptor field found =>
    "invalid type descriptor for field " ++ field ++
      ": expected a type name or a nested schema, found " ++ found.line
  | notAnObject => "schema descriptor must be an object"

/-- Where a descriptor has its question mark. Both places mean the same. -/
inductive Optionality where
  | required
  | trailing
  | leading
  deriving DecidableEq

structure FieldKey where
  name : String
  optionality : Optionality
  deriving DecidableEq

namespace FieldKey

def isOptional (key : FieldKey) : Bool :=
  decide (key.optionality ≠ .required)

def display (key : FieldKey) : String :=
  match key.optionality with
  | .required => key.name
  | .trailing => key.name ++ "?"
  | .leading => "?" ++ key.name

def ofMarked (descriptor : String) : FieldKey :=
  let text := descriptor.toList
  if text.getLast? = some '?' then ⟨String.ofList text.dropLast, .trailing⟩
  else if text.head? = some '?' then ⟨String.ofList text.tail, .leading⟩
  else ⟨descriptor, .required⟩

def parse (descriptor : String) : Except SchemaError FieldKey :=
  let key := ofMarked descriptor
  if key.name.isEmpty then .error .emptyFieldName else .ok key

end FieldKey

inductive Primitive where
  | boolean
  | number
  | string
  | function
  | object
  | array
  deriving DecidableEq

namespace Primitive

def name : Primitive → String
  | boolean => "Boolean"
  | number => "Number"
  | string => "String"
  | function => "Function"
  | object => "Object"
  | array => "Array"

def all : List Primitive :=
  [boolean, number, string, function, object, array]

def ofName? (name : String) : Option Primitive :=
  all.find? fun p => p.name == name

def accepts : Primitive → Value → Bool
  | string, .string s => !s.isEmpty
  | number, .number n => !n.isNaN
  | boolean, .bool _ => true
  | function, .function _ => true
  | object, .mapping _ => true
  | array, .sequence _ => true
  | _, _ => false

end Primitive

inductive TypeName where
  | string
  | number
  | boolean
  | object
  | array
  | function
  | mixed
  deriving DecidableEq

namespace TypeName

def name : TypeName → String
  | string => "string"
  | number => "number"
  | boolean => "boolean"
  | object => "object"
  | array => "array"
  | function => "function"
  | mixed => "mixed"

def all : List TypeName :=
  [string, number, boolean, object, array, function, mixed]

def ofName? (name : String) : Option TypeName :=
  all.find? fun t => t.name == name

/-- Sequences and instances count as objects; anything that is present is mixed. -/
def accepts : TypeName → Value → Bool
  | string, .string _ => true
  | number, .number _ => true
  | boolean, .bool _ => true
  | object, .mapping _ => true
  | object, .sequence _ => true
  | object, .custom _ _ => true
  | array, .sequence _ => true
  | function, .function _ => true
  | mixed, .undefined => false
  | mixed, _ => true
  | _, _ => false

end TypeName

structure TypeUnion where
  text : String
  members : List TypeName
  deriving DecidableEq

namespace TypeUnion

def parts (text : String) : List String :=
  (text.toList.splitOn '|').map fun part => String.ofList (Text.trim part)

def memberNames (text : String) : List String → Except SchemaError (List TypeName)
  | [] => .ok []
  | part :: r => do
    match TypeName.ofName? part with
    | none => throw (.unknownTypeName part text)
    | some name => return name :: (← memberNames text r)

def parse (text : String) : Except SchemaError TypeUnion :=
  (memberNames text (parts text)).map fun members => ⟨text, members⟩

def accepts (union : TypeUnion) (v : Value) : Bool :=
  union.members.any fun name => name.accepts v

end TypeUnion

end RecordSchema
