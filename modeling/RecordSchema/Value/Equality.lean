import RecordSchema.Value.Basic

namespace RecordSchema.Value

mutual

/-- Numbers are compared as numbers, so NaN differs from itself; the order of a mapping's members
does not matter. -/
def same : Value → Value → Bool
  | undefined, undefined => true
  | null, null => true
  | bool a, bool b => a == b
  | number m, number n => m.same n
  | string s, string t => s == t
  | sequence xs, sequence ys => sameItems xs ys
  | mapping xs, mapping ys => xs.length == ys.length && sameMembers xs ys
  | function i, function j => i == j
  | custom s x, custom t y => s == t && same x y
  | _, _ => false

def sameItems : List Value → List Value → Bool
  | [], [] => true
  | x :: xs, y :: ys => same x y && sameItems xs ys
  | _, _ => false

def sameMembers : List (String × Value) → List (String × Value) → Bool
  | [], _ => true
  | (k, x) :: xs, ys =>
    (match ys.lookup k with
      | some y => same x y
      | none => false) &&
    sameMembers xs ys

end

end RecordSchema.Value
