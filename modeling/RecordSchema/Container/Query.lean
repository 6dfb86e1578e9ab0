import RecordSchema.Container

namespace RecordSchema.Container

def keys (c : Container) : List String :=
  Members.names c.flat

def values (c : Container) : List Value :=
  c.flat.map Prod.snd

def size (c : Container) : Nat :=
  c.flat.length

def has (c : Container) (key : String) : Bool :=
  (c.flat.lookup key).isSome

def hasMember (c : Container) (key : String) : Bool :=
  (c.record.get? key).isSome

def afterStart? (start text : String) : Option String :=
  if start.toList.isPrefixOf text.toList then
    some (String.ofList (text.toList.drop start.toList.length))
  else none

def startsWith (start text : String) : Bool :=
  start.toList.isPrefixOf text.toList

/-- Some flat key starts with `key`, be it in the middle of a segment. -/
def includes (c : Container) (key : String) : Bool :=
  c.keys.any (startsWith key)

def entriesBelow (c : Container) (key : String) : Record :=
  c.flat.filterMap fun (flatKey, v) => (afterStart? (key ++ ".") flatKey).map fun rest => (rest, v)

/-- A direct member, or else the leaf at a flat key, or else the mapping of the entries below. -/
def get? (c : Container) (key : String) : Option Value :=
  match c.record.get? key with
  | some v => some v
  | none =>
    match c.flat.lookup key with
    | some v => some v
    | none =>
      match c.entriesBelow key with
      | [] => none
      | found => some (.mapping found)

def getD (c : Container) (key : String) (default : Value) : Value :=
  (c.get? key).getD default

def nonempty? (found : Record) : Option Record :=
  if found.isEmpty then none else some found

def getAll? (c : Container) (keys : List String) : Option Record :=
  nonempty? (Members.ofList (keys.filterMap fun key =>
    ((c.get? key).filter fun v => !v.isNullish).map fun v => (key, v)))

def getFlat? (c : Container) (keys : List String) : Option Record :=
  nonempty? (c.flat.filter fun (flatKey, _) => keys.any fun key => startsWith key flatKey)

def holds (c : Container) (v : Value) : Bool :=
  c.record.same v

end RecordSchema.Container
