import RecordSchema.Number.Text
import RecordSchema.Value.Basic

namespace RecordSchema.Value

mutual

/-- The text of a value. Items of a sequence are joined by commas, and nothing stands for a
missing or null item. -/
def toText : Value → String
  | undefined => "undefined"
  | null => "null"
  | bool b => if b then "true" else "false"
  | number n => n.toText
  | string s => s
  | sequence items => ",".intercalate (itemTexts items)
  | mapping _ => "[object Object]"
  | function _ => "function () \x7b [native code] \x7d"
  | custom _ primitive => toText primitive

def itemTexts : List Value → List String
  | [] => []
  | v :: r => (if v.isNullish then "" else toText v) :: itemTexts r

end

def toNumber : Value → Number
  | undefined => .nan
  | null => .zero false
  | bool b => if b then .ofNat 1 else .zero false
  | number n => n
  | string s => .ofText s
  | sequence items => .ofText (toText (sequence items))
  | mapping _ => .nan
  | function _ => .nan
  | custom _ primitive => toNumber primitive

/-- Words that mean true. They have no letter with a further capital form outside ASCII, so ASCII
lower case is enough to compare with them. -/
def truthyWords : List String :=
  ["true", "t", "yes", "y", "on", "1"]

def toBool : Value → Bool
  | bool b => b
  | string s => truthyWords.contains (String.ofList ((Text.trim s.toList).map Char.toLower))
  | number n => n.same (.ofNat 1)
  | _ => false

end RecordSchema.Value
