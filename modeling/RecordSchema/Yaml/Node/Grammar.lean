import RecordSchema.Yaml.Node
import RecordSchema.Yaml.Token

namespace RecordSchema.Yaml

abbrev Handles := List (String × String)

namespace Handles

def builtin : Handles :=
  [("!", "!"), ("!!", "tag:yaml.org,2002:")]

def resolve? (handles : Handles) (t : Property.Tag) : Option String :=
  if t.handle.isEmpty then some t.suffix
  else (handles.lookup t.handle).map fun start => start ++ t.suffix

end Handles

/-- Where a node stands: in a block; as a key or value of a block mapping, where a sequence may
have its dashes in the column of the key; or between brackets. -/
inductive Position where
  | block
  | member
  | flow
  deriving DecidableEq

namespace Node

def properties? (handles : Handles) : List Token → Option (Properties String × List Token)
  | .anchor a :: .tag t :: r => (handles.resolve? t).map fun tag => (⟨some a, some tag⟩, r)
  | .tag t :: .anchor a :: r => (handles.resolve? t).map fun tag => (⟨some a, some tag⟩, r)
  | .anchor a :: r => some (⟨some a, none⟩, r)
  | .tag t :: r => (handles.resolve? t).map fun tag => (⟨none, some tag⟩, r)
  | r => some ({}, r)

def scalarOf (p : Properties String) (plain : Bool) (text : String) : Node String :=
  if p.tag = some "!" then scalar { p with tag := none } plain text else scalar p plain text

def nextIn (listed : List Token) : List Token → Bool
  | [] => false
  | t :: _ => listed.contains t

mutual

def node? (handles : Handles) (fuel : Nat) (position : Position) (ts : List Token) :
    Option (Node String × List Token) :=
  match fuel, ts with
  | 0, _ => none
  | _ + 1, .reference name :: r => some (reference name, r)
  | fuel + 1, ts => do
    let (p, r) ← properties? handles ts
    match r with
    | .scalar plain text :: r => return (scalarOf p plain text, r)
    | .openSequence :: r =>
      let (items, r) ← flowItems? handles fuel true r
      return (sequence p items, r)
    | .openMapping :: r =>
      let (members, r) ← flowMembers? handles fuel true r
      return (mapping p members, r)
    | _ =>
      match position, r with
      | .member, .dash :: _ =>
        let (items, r) ← looseItems? handles fuel r
        return (sequence p items, r)
      | .block, .openBlockSequence :: r | .member, .openBlockSequence :: r =>
        let (items, r) ← blockItems? handles fuel r
        return (sequence p items, r)
      | .block, .openBlockMapping :: r | .member, .openBlockMapping :: r =>
        let (members, r) ← blockMembers? handles fuel r
        return (mapping p members, r)
      | _, _ => if p.anchor.isSome || p.tag.isSome then return (nothing p, r) else none

def nodeUnless? (handles : Handles) (fuel : Nat) (position : Position) (listed : List Token)
    (ts : List Token) : Option (Node String × List Token) :=
  match fuel with
  | 0 => none
  | fuel + 1 =>
    if nextIn listed ts then some (nothing {}, ts) else node? handles fuel position ts

def blockItems? (handles : Handles) (fuel : Nat) (ts : List Token) :
    Option (List (Node String) × List Token) :=
  match fuel, ts with
  | fuel + 1, .dash :: r => do
    let (item, r) ← nodeUnless? handles fuel .block [.dash, .closeBlock] r
    let (items, r) ← blockItems? handles fuel r
    return (item :: items, r)
  | _ + 1, .closeBlock :: r => some ([], r)
  | _, _ => none

def looseItems? (handles : Handles) (fuel : Nat) (ts : List Token) :
    Option (List (Node String) × List Token) :=
  match fuel, ts with
  | 0, _ => none
  | fuel + 1, .dash :: r => do
    let (item, r) ← nodeUnless? handles fuel .block [.dash, .key, .value, .closeBlock] r
    let (items, r) ← looseItems? handles fuel r
    return (item :: items, r)
  | _ + 1, r => some ([], r)

def valueUnless? (handles : Handles) (fuel : Nat) (position : Position) (listed : List Token)
    (ts : List Token) : Option (Node String × List Token) :=
  match fuel, ts with
  | 0, _ => none
  | fuel + 1, .value :: r => nodeUnless? handles fuel position listed r
  | _ + 1, r => some (nothing {}, r)

def blockMembers? (handles : Handles) (fuel : Nat) (ts : List Token) :
    Option (List (Node String × Node String) × List Token) :=
  match fuel, ts with
  | fuel + 1, .key :: r => do
    let (k, r) ← nodeUnless? handles fuel .member [.key, .value, .closeBlock] r
    let (v, r) ← valueUnless? handles fuel .member [.key, .value, .closeBlock] r
    let (members, r) ← blockMembers? handles fuel r
    return ((k, v) :: members, r)
  | _ + 1, .closeBlock :: r => some ([], r)
  | _, _ => none

/-- One key and its value among the items between brackets. A key that is left out takes the token
in its place with it. -/
def pair? (handles : Handles) (fuel : Nat) (ts : List Token) : Option (Node String × List Token) :=
  match fuel with
  | 0 => none
  | fuel + 1 => do
    let (k, r) ←
      if nextIn [.value, .comma, .closeSequence] ts then some (nothing {}, ts.tail)
      else node? handles fuel .flow ts
    let (v, r) ← valueUnless? handles fuel .flow [.comma, .closeSequence] r
    return (mapping {} [(k, v)], r)

def flowItems? (handles : Handles) (fuel : Nat) (first : Bool) (ts : List Token) :
    Option (List (Node String) × List Token) :=
  match fuel with
  | 0 => none
  | fuel + 1 =>
    match first, ts with
    | _, .closeSequence :: r => some ([], r)
    | false, .comma :: .closeSequence :: r => some ([], r)
    | false, .comma :: r => flowItem? handles fuel r
    | false, _ => none
    | true, r => flowItem? handles fuel r

def flowItem? (handles : Handles) (fuel : Nat) (ts : List Token) :
    Option (List (Node String) × List Token) :=
  match fuel with
  | 0 => none
  | fuel + 1 => do
    let (item, r) ←
      match ts with
      | .key :: r => pair? handles fuel r
      | r => node? handles fuel .flow r
    let (items, r) ← flowItems? handles fuel false r
    return (item :: items, r)

def flowMembers? (handles : Handles) (fuel : Nat) (first : Bool) (ts : List Token) :
    Option (List (Node String × Node String) × List Token) :=
  match fuel with
  | 0 => none
  | fuel + 1 =>
    match first, ts with
    | _, .closeMapping :: r => some ([], r)
    | false, .comma :: .closeMapping :: r => some ([], r)
    | false, .comma :: r => flowMember? handles fuel r
    | false, _ => none
    | true, r => flowMember? handles fuel r

def flowMember? (handles : Handles) (fuel : Nat) (ts : List Token) :
    Option (List (Node String × Node String) × List Token) :=
  match fuel with
  | 0 => none
  | fuel + 1 => do
    let (member, r) ←
      match ts with
      | .key :: r => do
        let (k, r) ← nodeUnless? handles fuel .flow [.value, .comma, .closeMapping] r
        let (v, r) ← valueUnless? handles fuel .flow [.comma, .closeMapping] r
        pure ((k, v), r)
      | r => do
        let (k, r) ← node? handles fuel .flow r
        pure ((k, nothing {}), r)
    let (members, r) ← flowMembers? handles fuel false r
    return (member :: members, r)

end

def directives? (version : Bool) (handles : Handles) : List Token → Option (Handles × List Token)
  | .directive (.version major minor) :: r =>
    if version || major ≠ 1 || (minor ≠ 1 && minor ≠ 2) then none
    else directives? true handles r
  | .directive (.tagHandle handle start) :: r =>
    if (handles.lookup handle).isSome then none
    else directives? version (handles ++ [(handle, start)]) r
  | r => some (handles, r)

def isDirective : Token → Bool
  | .directive _ => true
  | _ => false

def document? (fuel : Nat) (ts : List Token) : Option (Node String × List Token) :=
  if ts.head?.any fun t => isDirective t || t == .documentStart then do
    let (handles, r) ← directives? false [] ts
    match r with
    | .documentStart :: r =>
      if r.isEmpty || r.head?.any fun t => isDirective t || t == .documentStart || t == .documentEnd
      then return (nothing {}, r)
      else node? (handles ++ Handles.builtin) fuel .block r
    | _ => none
  else node? Handles.builtin fuel .block ts

/-- The node that tokens spell; nothing if there are none. Only marks of an end may follow it. The
length of the list gives fuel enough. -/
def ofTokens? (ts : List Token) : Option (Node String) :=
  if ts.isEmpty then some (nothing {})
  else
    match document? (4 * ts.length + 4) ts with
    | some (node, r) => if r.all (· == .documentEnd) then some node else none
    | none => none

end Node

end RecordSchema.Yaml
