import RecordSchema.Number.Layout

namespace RecordSchema

inductive JsonNumber where
  | integer (i : Int)
  | binary (n : Number)
  deriving DecidableEq

inductive Json where
  | null
  | bool (b : Bool)
  | number (n : JsonNumber)
  | string (s : String)
  | array (items : List Json)
  | object (members : List (String × Json))
  deriving Inhabited

def JsonNumber.toNumber : JsonNumber → Number
  | .integer i => .ofInt i
  | .binary n => n

end RecordSchema
