import RecordSchema.Container.Transform
import RecordSchema.Main
import RecordSchema.Number.Bits
import RecordSchema.Proofs.Compilation
import RecordSchema.Proofs.FailureChain
import RecordSchema.Proofs.JsonForm
import RecordSchema.Proofs.Coercion
import RecordSchema.Proofs.Parsing
import RecordSchema.Proofs.Rereading
import RecordSchema.Proofs.FixedPoint
import RecordSchema.Proofs.Convertible
import RecordSchema.Proofs.Leaves
import RecordSchema.Proofs.Flattening
import RecordSchema.Proofs.Lookup
import RecordSchema.Proofs.SubRecord
import RecordSchema.Proofs.Naming
import RecordSchema.Proofs.Grammar
import RecordSchema.Proofs.Rendering
import RecordSchema.Proofs.Descent
import RecordSchema.Proofs.Reparsing
import RecordSchema.Proofs.Optionality
import RecordSchema.Proofs.Undeclared
import RecordSchema.Proofs.Collisions
import RecordSchema.Proofs.UpToOrder
import RecordSchema.Proofs.FieldOrder
import RecordSchema.Proofs.Equality
import RecordSchema.Proofs.EqualRecords
import RecordSchema.Proofs.FlatLookup
import RecordSchema.Proofs.Coerced
import RecordSchema.Proofs.Numerals
import RecordSchema.Proofs.Rounding
import RecordSchema.Proofs.Spelling
import RecordSchema.Proofs.Shortest
import RecordSchema.Proofs.IntegerInstances
import RecordSchema.Proofs.JsonRoundTrip
import RecordSchema.Proofs.NumberText
import RecordSchema.Proofs.PartialEquivalence
import RecordSchema.Proofs.Positions
