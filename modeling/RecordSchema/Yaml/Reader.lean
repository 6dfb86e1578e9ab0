import RecordSchema.Json.Basic
import RecordSchema.Yaml.Node.Anchor
import RecordSchema.Yaml.Node.Grammar
import RecordSchema.Yaml.Scalar
import RecordSchema.Yaml.Token.Lexer

namespace RecordSchema.Yaml

def isPrivate (tag : Option String) : Bool :=
  match tag with
  | some t => t.toList.head? == some '!'
  | none => false

/-- The tree of a scalar. A known tag wants text of its kind, and with any other the text is a
string; without a tag only plain text is looked at. -/
def scalarJson? (tag : Option String) (plain : Bool) (text : String) : Option Json :=
  match tag with
  | none => if plain then Scalar.toJson? text.toList else some (.string text)
  | some "tag:yaml.org,2002:bool" => (Scalar.bool? text.toList).map .bool
  | some "tag:yaml.org,2002:int" => (Scalar.integer? text.toList).bind Scalar.integerJson?
  | some "tag:yaml.org,2002:float" => (Scalar.number? text.toList).map Scalar.numberJson
  | some "tag:yaml.org,2002:null" => if Scalar.isNull text.toList then some .null else none
  | some t => if isPrivate (some t) then none else some (.string text)

structure Shelf where
  nodes : List (Nat × Node Nat)
  limit : Nat

namespace Shelf

def ofNode (node : Node Nat) : Shelf :=
  ⟨node.anchored.reverse, 100 * node.size⟩

def follow? (shelf : Shelf) (used : Nat) (node : Node Nat) : Option (Node Nat × Nat) :=
  match node with
  | .reference n =>
    if shelf.limit ≤ used then none
    else (shelf.nodes.lookup n).map fun found => (found, used + 1)
  | node => some (node, used)

def key? (shelf : Shelf) (used : Nat) (node : Node Nat) : Option (String × Nat) := do
  match ← shelf.follow? used node with
  | (.scalar _ _ text, used) => return (text, used)
  | _ => none

def readAll? {α β : Type} (read : Nat → α → Option (β × Nat)) (used : Nat) :
    List α → Option (List β × Nat)
  | [] => some ([], used)
  | x :: r => do
    let (y, used) ← read used x
    let (ys, used) ← readAll? read used r
    return (y :: ys, used)

def read? (shelf : Shelf) (depth : Nat) (used : Nat) (node : Node Nat) : Option (Json × Nat) := do
  match ← shelf.follow? used node, depth with
  | (.scalar p plain text, used), _ => return (← scalarJson? p.tag plain text, used)
  | (.sequence p items, used), depth + 1 =>
    if isPrivate p.tag then none
    let (items, used) ← readAll? (fun used item => shelf.read? depth used item) used items
    return (.array items, used)
  | (.mapping p members, used), depth + 1 =>
    if isPrivate p.tag then none
    let member (used : Nat) (m : Node Nat × Node Nat) : Option ((String × Json) × Nat) := do
      let (k, used) ← shelf.key? used m.1
      let (v, used) ← shelf.read? depth used m.2
      return ((k, v), used)
    let (members, used) ← readAll? member used members
    return (.object (Members.ofList members), used)
  | _, _ => none

end Shelf

def read? (text : String) : Option Json := do
  let node ← Node.ofTokens? (← tokens? text)
  let (node, _) ← node.number? []
  let (j, _) ← (Shelf.ofNode node).read? 128 0 node
  return j

end RecordSchema.Yaml
