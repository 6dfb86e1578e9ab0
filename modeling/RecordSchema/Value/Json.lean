import RecordSchema.Json.Text
import RecordSchema.Value.Basic

namespace RecordSchema

def Number.safeInteger : Nat := 9007199254740991

def Number.toJson (n : Number) : Json :=
  match n.toInt? with
  | some i =>
    if i.natAbs ≤ Number.safeInteger then .number (.integer i) else .number (.binary n)
  | none =>
    match n with
    | .finite _ _ _ => .number (.binary n)
    | _ => .null

namespace Value

mutual

/-- JSON has no place for missing members and functions: they vanish from mappings and become null in
sequences. -/
def toJson? : Value → Option Json
  | undefined => none
  | null => some .null
  | bool b => some (.bool b)
  | number n => some n.toJson
  | string s => some (.string s)
  | sequence items => some (.array (itemsToJson items))
  | mapping members => some (.object (membersToJson members))
  | function _ => none
  | custom _ primitive => toJson? primitive

def itemsToJson : List Value → List Json
  | [] => []
  | v :: r => (toJson? v).getD .null :: itemsToJson r

def membersToJson : List (String × Value) → List (String × Json)
  | [] => []
  | (k, v) :: r =>
    match toJson? v with
    | some j => (k, j) :: membersToJson r
    | none => membersToJson r

end

mutual

def ofJson : Json → Value
  | .null => null
  | .bool b => bool b
  | .number n => number n.toNumber
  | .string s => string s
  | .array items => sequence (itemsOfJson items)
  | .object members => mapping (membersOfJson members)

def itemsOfJson : List Json → List Value
  | [] => []
  | j :: r => ofJson j :: itemsOfJson r

def membersOfJson : List (String × Json) → List (String × Value)
  | [] => []
  | (k, j) :: r => (k, ofJson j) :: membersOfJson r

end

def literal (v : Value) : String :=
  match v.toJson? with
  | some j => j.line
  | none => "undefined"

def document (v : Value) : Json :=
  v.toJson?.getD .null

end Value

end RecordSchema
