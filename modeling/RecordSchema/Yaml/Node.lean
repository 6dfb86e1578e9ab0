namespace RecordSchema.Yaml

structure Properties (ν : Type) where
  anchor : Option ν := none
  tag : Option String := none

inductive Node (ν : Type) where
  | reference (name : ν)
  | scalar (properties : Properties ν) (plain : Bool) (text : String)
  | sequence (properties : Properties ν) (items : List (Node ν))
  | mapping (properties : Properties ν) (members : List (Node ν × Node ν))

namespace Node

variable {ν : Type}

def nothing (properties : Properties ν) : Node ν :=
  scalar properties true ""

mutual

def size : Node ν → Nat
  | reference _ => 1
  | scalar _ _ _ => 1
  | sequence _ items => itemsSize items + 2
  | mapping _ members => membersSize members + 2

def itemsSize : List (Node ν) → Nat
  | [] => 0
  | item :: r => size item + itemsSize r

def membersSize : List (Node ν × Node ν) → Nat
  | [] => 0
  | (key, v) :: r => size key + size v + membersSize r

end

mutual

def anchored : Node ν → List (ν × Node ν)
  | reference _ => []
  | scalar p plain text => (p.anchor.map fun a => (a, scalar p plain text)).toList
  | sequence p items =>
    (p.anchor.map fun a => (a, sequence p items)).toList ++ anchoredItems items
  | mapping p members =>
    (p.anchor.map fun a => (a, mapping p members)).toList ++ anchoredMembers members

def anchoredItems : List (Node ν) → List (ν × Node ν)
  | [] => []
  | item :: r => anchored item ++ anchoredItems r

def anchoredMembers : List (Node ν × Node ν) → List (ν × Node ν)
  | [] => []
  | (key, v) :: r => anchored key ++ anchored v ++ anchoredMembers r

end

end Node

end RecordSchema.Yaml
