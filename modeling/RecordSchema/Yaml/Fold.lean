import RecordSchema.Yaml.Cursor

namespace RecordSchema.Yaml

/-- Spaces that wait for a scalar to go on. The lists have their last character first. -/
structure Gap where
  blanks : List Char
  broken : Bool
  first : List Char
  more : List Char

namespace Gap

def empty : Gap :=
  ⟨[], false, [], []⟩

def joined : Gap :=
  ⟨[], true, [], []⟩

def isEmpty (gap : Gap) : Bool :=
  gap.blanks.isEmpty && !gap.broken

def add (gap : Gap) (c : Char) : Gap :=
  match gap.broken, isBreak c with
  | false, false => { gap with blanks := c :: gap.blanks }
  | false, true => ⟨[], true, [c], []⟩
  | true, false => gap
  | true, true => { gap with more := c :: gap.more }

def folded (gap : Gap) : List Char :=
  if !gap.broken then gap.blanks
  else if gap.first = ['\n'] then
    if gap.more.isEmpty then [' '] else gap.more
  else gap.more ++ gap.first

end Gap

structure Scanned where
  text : List Char
  stop : Cursor
  lineEnded : Bool

end RecordSchema.Yaml
