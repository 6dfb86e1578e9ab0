import RecordSchema.Yaml.Token.Property

namespace RecordSchema.Yaml

inductive Token where
  | directive (d : Property.Directive)
  | documentStart
  | documentEnd
  | openBlockSequence
  | openBlockMapping
  | closeBlock
  | openSequence
  | closeSequence
  | openMapping
  | closeMapping
  | comma
  | dash
  | key
  | value
  | anchor (name : String)
  | reference (name : String)
  | tag (t : Property.Tag)
  | scalar (plain : Bool) (text : String)
  deriving DecidableEq

end RecordSchema.Yaml
