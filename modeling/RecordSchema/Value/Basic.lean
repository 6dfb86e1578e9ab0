import RecordSchema.Members
import RecordSchema.Number.Basic

namespace RecordSchema

inductive Value where
  /-- A member that is not present. -/
  | undefined
  | null
  | bool (b : Bool)
  | number (n : Number)
  | string (s : String)
  | sequence (items : List Value)
  | mapping (members : List (String × Value))
  | function (id : Nat)
  /-- An instance of a custom type stands for a primitive value. -/
  | custom (typeName : String) (primitive : Value)
  deriving Inhabited

abbrev Record := List (String × Value)

namespace Value

def isNullish : Value → Bool
  | undefined => true
  | null => true
  | _ => false

def isContainer : Value → Bool
  | sequence _ => true
  | mapping _ => true
  | _ => false

def isMapping : Value → Bool
  | mapping _ => true
  | _ => false

def position? (key : String) : Option Nat :=
  if key.toList.all Char.isDigit then
    let n := Nat.ofDigitChars 10 key.toList 0
    if n.repr = key then some n else none
  else none

theorem position?_repr (n : Nat) : position? n.repr = some n := by
  have digits : n.repr.toList.all Char.isDigit = true := by
    rw [Nat.repr_eq_ofList_toDigits, String.toList_ofList, List.all_eq_true]
    exact fun c hc => Nat.isDigit_of_mem_toDigits (by decide) (by decide) hc
  have value : Nat.ofDigitChars 10 n.repr.toList 0 = n := by
    rw [Nat.repr_eq_ofList_toDigits, String.toList_ofList]
    exact Nat.ofDigitChars_toDigits (by decide) (by decide)
  rw [position?, if_pos digits, value]
  exact if_pos rfl

theorem repr_eq_of_position? {key : String} {n : Nat} (h : position? key = some n) :
    n.repr = key := by
  simp only [position?] at h
  split at h
  · split at h
    · next e => cases h; exact e
    · cases h
  · cases h

def get? (key : String) : Value → Option Value
  | mapping members => members.lookup key
  | sequence items => (position? key).bind fun i => items[i]?
  | _ => none

def member (key : String) (v : Value) : Value :=
  (v.get? key).getD undefined

/-- The direct member `key`, or in a sequence without one the member `key` of its first item. -/
def memberOrFirst (key : String) (v : Value) : Value :=
  match v.get? key with
  | some found => found
  | none =>
    match v with
    | sequence (first :: _) => first.member key
    | _ => undefined

def entriesFrom (start : Nat) : List Value → Record
  | [] => []
  | v :: r => (start.repr, v) :: entriesFrom (start + 1) r

def entries : Value → Record
  | mapping members => members
  | sequence items => entriesFrom 0 items
  | _ => []

mutual

/-- Every mapping in the value names a member once. -/
def WellFormed : Value → Prop
  | sequence items => WellFormedItems items
  | mapping members => (Members.names members).Nodup ∧ WellFormedMembers members
  | custom _ primitive => WellFormed primitive
  | _ => True

def WellFormedItems : List Value → Prop
  | [] => True
  | v :: r => WellFormed v ∧ WellFormedItems r

def WellFormedMembers : List (String × Value) → Prop
  | [] => True
  | (_, v) :: r => WellFormed v ∧ WellFormedMembers r

end

end Value

end RecordSchema
