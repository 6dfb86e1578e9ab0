import RecordSchema.Json.Token
import RecordSchema.Members

namespace RecordSchema.Json

inductive Frame where
  | array (items : List Json)
  | object (members : List (String × Json)) (name : String)

inductive Progress where
  | value (stack : List Frame)
  | itemOrClose (stack : List Frame)
  | name (members : List (String × Json)) (stack : List Frame)
  | nameOrClose (stack : List Frame)
  | colon (members : List (String × Json)) (name : String) (stack : List Frame)
  | done (j : Json) (stack : List Frame)

structure Reading where
  number : Bool → Numeral → Option JsonNumber
  depth : Nat
  /-- Inside the outermost array or object, names and strings need not be legible. -/
  skims : Bool

def Reading.string? (reading : Reading) (stack : List Frame) (s : Option String) : Option String :=
  s.or (if reading.skims && !stack.isEmpty then some "" else none)

def begin? (reading : Reading) (stack : List Frame) : Token → Option Progress
  | .atom j => some (.done j stack)
  | .string s => (reading.string? stack s).map fun s => .done (.string s) stack
  | .openArray => if stack.length < reading.depth then some (.itemOrClose stack) else none
  | .openObject => if stack.length < reading.depth then some (.nameOrClose stack) else none
  | _ => none

def step? (reading : Reading) : Progress → Token → Option Progress
  | .value stack, t => begin? reading stack t
  | .itemOrClose stack, .closeArray => some (.done (.array []) stack)
  | .itemOrClose stack, t => begin? reading (.array [] :: stack) t
  | .nameOrClose stack, .closeObject => some (.done (.object []) stack)
  | .nameOrClose stack, .string k => (reading.string? stack k).map fun k => .colon [] k stack
  | .name members stack, .string k =>
    (reading.string? stack k).map fun k => .colon members k stack
  | .colon members k stack, .colon => some (.value (.object members k :: stack))
  | .done j (.array items :: stack), .comma => some (.value (.array (j :: items) :: stack))
  | .done j (.array items :: stack), .closeArray =>
    some (.done (.array (j :: items).reverse) stack)
  | .done j (.object members k :: stack), .comma => some (.name ((k, j) :: members) stack)
  | .done j (.object members k :: stack), .closeObject =>
    some (.done (.object ((k, j) :: members).reverse) stack)
  | _, _ => none

def parse? (reading : Reading) (text : String) : Option Json :=
  match (tokens? reading.number text.toList).bind (List.foldlM (step? reading) (.value [])) with
  | some (.done j []) => some j
  | _ => none

mutual

/-- Each object names a member once, at its first place and with its last content. -/
def settle : Json → Json
  | array items => array (settleItems items)
  | object members => object (Members.ofList (settleMembers members))
  | j => j

def settleItems : List Json → List Json
  | [] => []
  | j :: r => settle j :: settleItems r

def settleMembers : List (String × Json) → List (String × Json)
  | [] => []
  | (k, j) :: r => (k, settle j) :: settleMembers r

end

def documents : Reading :=
  ⟨JsonNumber.ofNumeral? JsonNumber.quick?, 127, false⟩

def read? (text : String) : Option Json :=
  (parse? documents text).map settle

end RecordSchema.Json
