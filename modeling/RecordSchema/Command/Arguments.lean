namespace RecordSchema

inductive Format where
  | json
  | yaml
  deriving DecidableEq

inductive Command where
  | flatten (input : String) (base : Option String) (format : Format)
  | validate (schema : String) (inputs : List String)
  | parse (schema : String) (revalidate : Bool) (options : Option String) (input : String)
      (format : Format)
  | get (input : String) (keys : List String) (flat : Bool) (default : Option String)
      (format : Format)

namespace Command

structure Grammar where
  valued : List String
  flags : List String

structure Given where
  values : List (String × String) := []
  flags : List String := []
  operands : List String := []

namespace Given

def addValue (given : Given) (name value : String) : Given :=
  { given with values := given.values ++ [(name, value)] }

def addFlag (given : Given) (name : String) : Given :=
  { given with flags := given.flags ++ [name] }

def addOperands (given : Given) (operands : List String) : Given :=
  { given with operands := given.operands ++ operands }

def all (given : Given) (name : String) : List String :=
  (given.values.filter fun v => v.1 == name).map Prod.snd

def has (given : Given) (flag : String) : Bool :=
  given.flags.contains flag

def optional? (given : Given) (name : String) : Option (Option String) :=
  match given.all name with
  | [] => some none
  | [value] => some (some value)
  | _ => none

def required? (given : Given) (name : String) : Option String :=
  match given.all name with
  | [value] => some value
  | _ => none

end Given

inductive Argument where
  | operand (text : String)
  | option (name : String)
  | assigned (name value : String)
  | separator
  | unknown

def Argument.ofText (text : String) : Argument :=
  match text.toList with
  | '-' :: '-' :: r =>
    if r.isEmpty then separator
    else if r.contains '=' then
      assigned (String.ofList (r.takeWhile (· != '=')))
        (String.ofList ((r.dropWhile (· != '=')).drop 1))
    else option (String.ofList r)
  | ['-', 'v'] => option "verbose"
  | ['-'] => operand text
  | '-' :: _ => unknown
  | _ => operand text

def isDashed (text : String) : Bool :=
  text != "-" && text.toList.head? == some '-'

def scan? (grammar : Grammar) (given : Given) : List String → Option Given
  | [] => some given
  | text :: r =>
    match Argument.ofText text with
    | .operand operand => scan? grammar (given.addOperands [operand]) r
    | .separator => some (given.addOperands r)
    | .assigned name value =>
      if grammar.valued.contains name then scan? grammar (given.addValue name value) r else none
    | .option name =>
      if grammar.flags.contains name then
        if given.has name then none else scan? grammar (given.addFlag name) r
      else if grammar.valued.contains name then
        match r with
        | value :: r' =>
          if isDashed value then none else scan? grammar (given.addValue name value) r'
        | [] => none
      else none
    | .unknown => none

def file? (name : String) : Option String :=
  if name.isEmpty then none else some name

def optionalFile? : Option String → Option (Option String)
  | none => some none
  | some name => (file? name).map some

def format? : Option String → Option Format
  | none => some .json
  | some "json" => some .json
  | some "yaml" => some .yaml
  | _ => none

def singleFile? : List String → Option String
  | [name] => file? name
  | _ => none

def flatten? (arguments : List String) : Option Command := do
  let given ← scan? ⟨["prefix", "format"], ["verbose"]⟩ {} arguments
  return .flatten (← singleFile? given.operands) (← given.optional? "prefix")
    (← format? (← given.optional? "format"))

def validate? (arguments : List String) : Option Command := do
  let given ← scan? ⟨["schema"], ["verbose"]⟩ {} arguments
  if given.operands.isEmpty then none
  return .validate (← file? (← given.required? "schema")) (← given.operands.mapM file?)

def parse? (arguments : List String) : Option Command := do
  let given ← scan? ⟨["schema", "options", "format"], ["verbose", "validate"]⟩ {} arguments
  return .parse (← file? (← given.required? "schema")) (given.has "validate")
    (← optionalFile? (← given.optional? "options")) (← singleFile? given.operands)
    (← format? (← given.optional? "format"))

def get? (arguments : List String) : Option Command := do
  let given ← scan? ⟨["key", "default", "format"], ["verbose", "flat"]⟩ {} arguments
  if (given.all "key").isEmpty then none
  return .get (← singleFile? given.operands) (given.all "key") (given.has "flat")
    (← given.optional? "default") (← format? (← given.optional? "format"))

def named? : List String → Option Command
  | "flatten" :: r => flatten? r
  | "validate" :: r => validate? r
  | "parse" :: r => parse? r
  | "get" :: r => get? r
  | _ => none

def ofArguments? : List String → Option Command
  | "-v" :: r => named? r
  | "--verbose" :: r => named? r
  | r => named? r

end Command

end RecordSchema
