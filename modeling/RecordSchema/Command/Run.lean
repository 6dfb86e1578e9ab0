import RecordSchema.Command.Arguments
import RecordSchema.Container.Query
import RecordSchema.Schema.Int
import RecordSchema.Yaml.Reader
import RecordSchema.Yaml.Text

namespace RecordSchema

inductive ReadFailure where
  | missing
  | directory
  | other (reason : String)

def ReadFailure.message : ReadFailure → String
  | missing => "No such file or directory (os error 2)"
  | directory => "Is a directory (os error 21)"
  | other reason => reason

inductive Failure where
  | unreadable (file : String) (why : ReadFailure)
  | notText (file : String)
  | malformed (format : Format) (file : String)
  | invalidSchema (file : String) (e : SchemaError)
  | invalidOptions (file : String) (e : ValidationError)
  | invalidRecord (file : String) (e : ValidationError)
  | record (e : RecordError)

namespace Failure

def formatName : Format → String
  | .json => "JSON"
  | .yaml => "YAML"

def about (what file rest : String) : String :=
  what ++ " '" ++ file ++ "':" ++ rest

def message : Failure → String
  | unreadable file why => about "Failed to read" file (" " ++ why.message)
  | notText file => about "Failed to read" file " stream did not contain valid UTF-8"
  | malformed format file => about ("Failed to parse " ++ formatName format) file ""
  | invalidSchema file e => about "Invalid schema" file (" " ++ e.message)
  | invalidOptions file e => about "Invalid options in" file (" " ++ e.message)
  | invalidRecord file e => file ++ ": " ++ e.message
  | record e => e.message

/-- What is wrong in a malformed file is not said, and the line stays open there. -/
def isOpen : Failure → Bool
  | malformed _ _ => true
  | _ => false

def report (f : Failure) : String :=
  "error: " ++ f.message ++ (if f.isOpen then "" else "\n")

end Failure

structure Outcome where
  status : Nat
  output : String
  errors : String

def Format.render (format : Format) (v : Value) : String :=
  match format with
  | .json => v.document.indented ++ "\n"
  | .yaml => Yaml.document v.document

def Format.ofFile (file : String) : Format :=
  let segments := (file.toList.splitOn '/').filter fun s => !s.isEmpty && s != ['.']
  let reversed := (segments.getLast?.getD []).reverse
  let ending := (reversed.takeWhile (· != '.')).reverse.map Char.toLower
  let hasStem := !((reversed.dropWhile (· != '.')).drop 1).isEmpty
  if hasStem && (ending == "yaml".toList || ending == "yml".toList) then .yaml else .json

def Format.read? (format : Format) (text : String) : Option Json :=
  match format with
  | .json => Json.read? text
  | .yaml => Yaml.read? text

namespace Command

variable {m : Type → Type} [Monad m] (read : String → m (Except ReadFailure ByteArray))

def readText (file : String) : ExceptT Failure m String := do
  match ← ExceptT.lift (read file) with
  | .error why => throw (.unreadable file why)
  | .ok bytes =>
    match String.fromUTF8? bytes with
    | some text => return text
    | none => throw (.notText file)

def readDocument (file : String) : ExceptT Failure m Json := do
  let text ← readText read file
  let format := Format.ofFile file
  match format.read? text with
  | some j => return j
  | none => throw (.malformed format file)

def readValue (file : String) : ExceptT Failure m Value := do
  return .ofJson (← readDocument read file)

def readSchema (file : String) : ExceptT Failure m Schema := do
  match Schema.ofJson .builtin (← readDocument read file) with
  | .ok schema => return schema
  | .error e => throw (.invalidSchema file e)

def records : Value → List Value
  | .sequence items => items
  | v => [v]

def validateFile (schema : Schema) (file : String) : ExceptT Failure m Nat := do
  let listed := records (← readValue read file)
  match Factory.createAll ⟨some schema⟩ listed with
  | .ok containers => return containers.length
  | .error e => throw (.invalidRecord file e)

def validateFiles (schema : Schema) : List String → ExceptT Failure m Nat
  | [] => return 0
  | file :: r => do
    let count ← validateFile read schema file
    return count + (← validateFiles schema r)

def readOptions : Option String → ExceptT Failure m ParseOptions
  | none => return {}
  | some file => do
    match ParseOptions.ofValue (← readValue read file) with
    | .ok options => return options
    | .error e => throw (.invalidOptions file e)

def parseValue (schema : Schema) (options : ParseOptions) : Value → Except RecordError Value
  | .sequence items => (Factory.parseAll ⟨some schema⟩ options items).map .sequence
  | v => Factory.parse ⟨some schema⟩ options v

def defaultValue (text : String) : Value :=
  match Json.read? text with
  | some j => .ofJson j
  | none => .string text

def wrap (base : Option String) (v : Value) : ExceptT Failure m Container :=
  match Factory.wrap ⟨none⟩ base v with
  | .ok c => return c
  | .error e => throw (.record (.validation e))

def output : Command → ExceptT Failure m String
  | flatten input base format => do
    let c ← wrap base (← readValue read input)
    return format.render (.mapping c.flat)
  | validate schema inputs => do
    let s ← readSchema read schema
    let count ← validateFiles read s inputs
    return "Validated " ++ toString count ++ " record(s) from " ++ toString inputs.length ++
      " file(s).\n"
  | parse schema revalidate options input format => do
    let s ← readSchema read schema
    let given ← readOptions read options
    let v ← readValue read input
    match parseValue s ⟨given.validate || revalidate⟩ v with
    | .ok parsed => return format.render parsed
    | .error e => throw (.record e)
  | get input keys flat default format => do
    let c ← wrap none (← readValue read input)
    let found := if flat then c.getFlat? keys else c.getAll? keys
    match found with
    | some members => return format.render (.mapping members)
    | none => return format.render ((default.map defaultValue).getD .null)

def run (command : Command) : m Outcome := do
  match ← (output read command).run with
  | .ok text => return ⟨0, text, ""⟩
  | .error f => return ⟨1, "", f.report⟩

def runArguments (arguments : List String) : m Outcome :=
  match ofArguments? arguments with
  | some command => run read command
  | none => return ⟨2, "", ""⟩

end Command

end RecordSchema
