import RecordSchema.Number.Basic

namespace RecordSchema.Number

def signBit (negative : Bool) : Nat :=
  if negative then Nat.pow 2 63 else 0

/-- The bits after the sign. Each doubling of the last place adds one to the exponent field. -/
def magnitudeBits (units : Nat) : Nat :=
  let shift := units.log2 - 52
  shift * Nat.pow 2 52 + units / Nat.pow 2 shift

def toBits : Number → Nat
  | .nan => 0x7ff8000000000000
  | .infinite negative => signBit negative + 0x7ff0000000000000
  | .finite negative units _ => signBit negative + magnitudeBits units

def ofBits (bits : Nat) : Number :=
  let negative := decide (bits / Nat.pow 2 63 % 2 = 1)
  let exponent := bits / Nat.pow 2 52 % 2048
  let fraction := bits % Nat.pow 2 52
  if exponent = 2047 then
    if fraction = 0 then .infinite negative else .nan
  else if exponent = 0 then nearest negative fraction 1
  else nearest negative ((Nat.pow 2 52 + fraction) * Nat.pow 2 (exponent - 1)) 1

end RecordSchema.Number
