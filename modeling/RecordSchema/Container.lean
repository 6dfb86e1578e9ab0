import RecordSchema.Coercion
import RecordSchema.Flatten
import RecordSchema.Options
import RecordSchema.Value.Equality

namespace RecordSchema

structure Container where
  record : Value
  schema : Option Schema
  subSchema : Option Schema
  base : Option String
  flat : Record

inductive RecordError where
  | validation (e : ValidationError)
  | construction (e : ConstructionError)

def RecordError.message : RecordError → String
  | validation e => e.message
  | construction e => e.message

structure Factory where
  schema : Option Schema

namespace Factory

def ofSchema (schema : Schema) : Factory :=
  ⟨some schema⟩

def schemaAt (factory : Factory) (base : Option String) : Option Schema :=
  match Path.base? base with
  | some path => factory.schema.bind fun s => s.resolve? path
  | none => factory.schema

/-- Wraps a record that stands at `base`. Where no schema is known, nothing is checked. -/
def wrap (factory : Factory) (base : Option String) (record : Value) :
    Except ValidationError Container := do
  let subSchema := factory.schemaAt base
  match subSchema with
  | some s => s.check record
  | none => pure ()
  return ⟨record, factory.schema, subSchema, Path.base? base, record.flatten base⟩

def create (factory : Factory) (record : Value) : Except ValidationError Container :=
  factory.wrap none record

def createAt (factory : Factory) (base : String) (record : Value) :
    Except ValidationError Container :=
  factory.wrap (some base) record

def createAll (factory : Factory) (records : List Value) :
    Except ValidationError (List Container) :=
  records.mapM factory.create

def coerce (factory : Factory) (record : Value) : Except ConstructionError Value :=
  match factory.schema with
  | some s => s.coerce record
  | none => .ok record

def parseCreate (factory : Factory) (record : Value) : Except RecordError Container :=
  match factory.coerce record with
  | .error e => .error (.construction e)
  | .ok coerced => (factory.create coerced).mapError .validation

def parse (factory : Factory) (options : ParseOptions) (record : Value) :
    Except RecordError Value :=
  if options.validate then (factory.parseCreate record).map Container.record
  else (factory.coerce record).mapError .construction

def parseWith (factory : Factory) (options record : Value) : Except RecordError Value :=
  match ParseOptions.ofValue options with
  | .error e => .error (.validation e)
  | .ok options => factory.parse options record

def parseAll (factory : Factory) (options : ParseOptions) (records : List Value) :
    Except RecordError (List Value) :=
  records.mapM (factory.parse options)

end Factory

end RecordSchema
