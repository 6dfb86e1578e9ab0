import RecordSchema.Json.Reader
import RecordSchema.Validation

namespace RecordSchema

structure ParseOptions where
  validate : Bool := false
  deriving DecidableEq

namespace ParseOptions

def schema : Schema :=
  [(⟨"validate", .trailing⟩, .primitive .boolean)]

def ofValue (raw : Value) : Except ValidationError ParseOptions :=
  if raw.isNullish then .ok {}
  else match schema.mismatch? raw with
    | some (key, type) => .error ⟨⟨[key], type, raw.member key.name⟩, raw, schema⟩
    | none =>
      match raw.member "validate" with
      | .bool b => .ok ⟨b⟩
      | _ => .ok {}

def ofSetting : List Json → Option ParseOptions
  | [] => some {}
  | [.bool b] => some ⟨b⟩
  | _ => none

/-- Members that are no settings are not looked at: their numbers may be out of range, their strings
illegible, and their nesting deep. -/
def reading (text : String) : Json.Reading :=
  ⟨fun _ _ => some (.integer 0), text.length, true⟩

def ofText? (text : String) : Option ParseOptions :=
  match Json.parse? (reading text) text with
  | some (.object members) =>
    ofSetting ((members.filter fun m => m.1 == "validate").map Prod.snd)
  | some (.array items) => ofSetting items
  | _ => none

def toJson (options : ParseOptions) : Json :=
  .object [("validate", .bool options.validate)]

end ParseOptions

end RecordSchema
