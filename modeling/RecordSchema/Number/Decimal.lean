import RecordSchema.Number.Basic

namespace RecordSchema

structure Decimal where
  digits : Nat
  exponent : Int
  deriving DecidableEq

inductive Tie where
  | toEven
  | up

namespace Decimal

def toNumber (negative : Bool) (d : Decimal) : Number :=
  Number.ofDecimal negative d.digits d.exponent

def trim (d : Decimal) : Decimal :=
  if d.digits ≠ 0 ∧ d.digits % 10 = 0 then trim ⟨d.digits / 10, d.exponent + 1⟩ else d
termination_by d.digits
decreasing_by omega

def readsBack (units : Nat) (d : Decimal) : Bool :=
  match d.toNumber false with
  | .finite _ read _ => read == units
  | _ => false

def scaled (units : Nat) (exponent : Int) : Nat × Nat :=
  match exponent with
  | .ofNat k => (units, Number.unitsPerOne * Nat.pow 10 k)
  | .negSucc k => (units * Nat.pow 10 (k + 1), Number.unitsPerOne)

def nearer (tie : Tie) (low rest den : Nat) : Nat :=
  if 2 * rest < den then low
  else if den < 2 * rest then low + 1
  else match tie with
    | .toEven => low + low % 2
    | .up => low + 1

def onGrid? (tie : Tie) (units : Nat) (exponent : Int) : Option Decimal :=
  let (num, den) := scaled units exponent
  let low := num / den
  match readsBack units ⟨low, exponent⟩, readsBack units ⟨low + 1, exponent⟩ with
  | true, true => some ⟨nearer tie low (num % den) den, exponent⟩
  | true, false => some ⟨low, exponent⟩
  | false, true => some ⟨low + 1, exponent⟩
  | false, false => none

def above (units : Nat) : Int :=
  (Nat.toDigits 10 (units * Nat.pow 10 324 / Number.unitsPerOne)).length - 324

def exact (units : Nat) : Decimal :=
  ⟨units * Nat.pow 5 1074, -1074⟩

/-- The grids of one to seventeen digits are tried in turn; seventeen are always enough. -/
def shortest (tie : Tie) (units : Nat) : Decimal :=
  let top := above units
  let onGrid (n : Nat) := onGrid? tie units (top - (n + 1 : Nat))
  (((List.range 17).findSome? onGrid).getD (exact units)).trim

end Decimal

end RecordSchema
