import RecordSchema.Path
import RecordSchema.Value.Basic

namespace RecordSchema

namespace Value

mutual

def flattenAt (path : String) (flat : Record) : Value → Record
  | sequence items => flattenItems (some path) 0 flat items
  | mapping members => flattenMembers (some path) flat members
  | leaf => Members.insert path leaf flat

def flattenItems (base : Option String) (start : Nat) (flat : Record) : List Value → Record
  | [] => flat
  | v :: r =>
    flattenItems base (start + 1) (flattenAt (Path.extend base start.repr) flat v) r

def flattenMembers (base : Option String) (flat : Record) : List (String × Value) → Record
  | [] => flat
  | (k, v) :: r => flattenMembers base (flattenAt (Path.extend base k) flat v) r

end

/-- The flat view of a record that stands at `base`; a value that is no container has no leaves. -/
def flatten (base : Option String) : Value → Record
  | sequence items => flattenItems (Path.base? base) 0 [] items
  | mapping members => flattenMembers (Path.base? base) [] members
  | _ => []

end Value

end RecordSchema
