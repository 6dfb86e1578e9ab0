import RecordSchema.Command.Run

namespace RecordSchema

def readFile (file : String) : IO (Except ReadFailure ByteArray) := do
  try
    return .ok (← IO.FS.readBinFile file)
  catch e =>
    return .error <|
      match e with
      | .noFileOrDirectory _ _ _ => .missing
      | .inappropriateType _ _ _ => .directory
      | e => .other (toString e)

end RecordSchema

open RecordSchema in
def main (arguments : List String) : IO UInt32 := do
  let outcome ← Command.runArguments readFile arguments
  IO.print outcome.output
  IO.eprint outcome.errors
  return outcome.status.toUInt32
