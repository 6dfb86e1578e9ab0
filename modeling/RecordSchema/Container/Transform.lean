import RecordSchema.Container

namespace RecordSchema.Container

def map (f : Value → String → Value → Value) (c : Container) : Record :=
  c.record.entries.map fun (key, v) => (key, f v key c.record)

def filter (p : Value → String → Value → Bool) (c : Container) : Record :=
  c.record.entries.filter fun (key, v) => p v key c.record

def flatMap (f : Value → Value) (c : Container) : Record :=
  c.flat.map fun (key, v) => (key, f v)

def flatFilter (p : Value → Bool) (c : Container) : Record :=
  c.flat.filter fun (_, v) => p v

variable {m : Type → Type} [Monad m]

def allMembers (p : Value → m Bool) (c : Container) : m Bool :=
  c.record.entries.allM fun (_, v) => p v

def anyMember (p : Value → m Bool) (c : Container) : m Bool :=
  c.record.entries.anyM fun (_, v) => p v

def allLeaves (p : Value → m Bool) (c : Container) : m Bool :=
  c.flat.allM fun (_, v) => p v

def anyLeaf (p : Value → m Bool) (c : Container) : m Bool :=
  c.flat.anyM fun (_, v) => p v

end RecordSchema.Container
