import RecordSchema.Members
import RecordSchema.Yaml.Node

namespace RecordSchema.Yaml.Node

abbrev Anchors := List (String × Nat)

def numberProperties (known : Anchors) (p : Properties String) : Properties Nat × Anchors :=
  match p.anchor with
  | none => (⟨none, p.tag⟩, known)
  | some name => (⟨some known.length, p.tag⟩, Members.insert name known.length known)

mutual

/-- Numbers the anchors of a node, each by the count of names before it; none if an alias has no
anchor before it. -/
def number? (known : Anchors) : Node String → Option (Node Nat × Anchors)
  | reference name => (known.lookup name).map fun n => (reference n, known)
  | scalar p plain text =>
    let (p, known) := numberProperties known p
    some (scalar p plain text, known)
  | sequence p items => do
    let (p, known) := numberProperties known p
    let (items, known) ← numberItems? known items
    return (sequence p items, known)
  | mapping p members => do
    let (p, known) := numberProperties known p
    let (members, known) ← numberMembers? known members
    return (mapping p members, known)

def numberItems? (known : Anchors) : List (Node String) → Option (List (Node Nat) × Anchors)
  | [] => some ([], known)
  | item :: r => do
    let (item, known) ← number? known item
    let (r, known) ← numberItems? known r
    return (item :: r, known)

def numberMembers? (known : Anchors) :
    List (Node String × Node String) → Option (List (Node Nat × Node Nat) × Anchors)
  | [] => some ([], known)
  | (key, v) :: r => do
    let (key, known) ← number? known key
    let (v, known) ← number? known v
    let (r, known) ← numberMembers? known r
    return ((key, v) :: r, known)

end

end RecordSchema.Yaml.Node
