import RecordSchema.Schema.Compile
import RecordSchema.Value.Conversion

namespace RecordSchema

structure IntegerNumber where
  number : Number
  isInteger : number.isInteger = true

namespace IntegerNumber

def typeName : String := "Int"

def refusal (text : String) : ConstructionError :=
  ⟨typeName, text ++ " isn't an integer"⟩

def ofNumber (n : Number) : Except ConstructionError IntegerNumber :=
  if h : n.isInteger = true then .ok ⟨n, h⟩ else .error (refusal n.toText)

def ofValue : Value → Except ConstructionError IntegerNumber
  | .number n => ofNumber n
  | .custom name primitive =>
    if name = typeName then ofValue primitive
    else .error (refusal (Value.custom name primitive).toText)
  | v => .error (refusal v.toText)

def display (i : IntegerNumber) : String :=
  i.number.toText

def toInstance (i : IntegerNumber) : Instance :=
  ⟨typeName, .number i.number⟩

def accepts : Value → Bool
  | .number n => n.isInteger
  | v => v.isInstanceOf typeName

def type : CustomType where
  name := typeName
  construct v := (ofValue v).map toInstance
  accepts := accepts

end IntegerNumber

def Registry.builtin : Registry :=
  Registry.empty.register IntegerNumber.type

end RecordSchema
