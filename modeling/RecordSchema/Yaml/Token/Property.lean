import RecordSchema.Number.Numeral
import RecordSchema.Yaml.Token.Block

namespace RecordSchema.Yaml.Property

def isWord (c : Char) : Bool :=
  c.isAlphanum || c == '_' || c == '-'

def name? (text : List Char) : Option (String × List Char) :=
  let name := text.takeWhile isWord
  let r := text.dropWhile isWord
  let ended := endsWord r ||
    r.head?.any fun c => "?:,]\x7d%@".toList.contains c || c.toNat == 96
  if !name.isEmpty && ended then some (String.ofList name, r) else none

def isUri (verbatim : Bool) (c : Char) : Bool :=
  isWord c || ";/?:@&=+$.%!~*'()".toList.contains c || (verbatim && ",[]".toList.contains c)

def octets? : List Char → Option (List UInt8)
  | [] => some []
  | '%' :: a :: b :: r =>
    match Numeral.digit? 16 a, Numeral.digit? 16 b with
    | some high, some low => (octets? r).map ((high * 16 + low).toUInt8 :: ·)
    | _, _ => none
  | c :: r => if c = '%' then none else (octets? r).map (c.toNat.toUInt8 :: ·)

def uri? (verbatim : Bool) (text : List Char) : Option (String × List Char) := do
  let octets ← octets? (text.takeWhile (isUri verbatim))
  return (← String.fromUTF8? ⟨octets.toArray⟩, text.dropWhile (isUri verbatim))

def nonempty? (found : String × List Char) : Option (String × List Char) :=
  if found.1.isEmpty then none else some found

structure Tag where
  handle : String
  suffix : String
  deriving DecidableEq

def tagAt? : List Char → Option (Tag × List Char)
  | '!' :: '<' :: r => do
    match ← (uri? true r).bind nonempty? with
    | (text, '>' :: r) => return (⟨"", text⟩, r)
    | _ => none
  | '!' :: r =>
    let name := String.ofList (r.takeWhile isWord)
    match r.dropWhile isWord with
    | '!' :: r => do
      let (text, r) ← (uri? false r).bind nonempty?
      return (⟨"!" ++ name ++ "!", text⟩, r)
    | r => do
      let (text, r) ← uri? false r
      let suffix := name ++ text
      return (if suffix.isEmpty then ⟨"", "!"⟩ else ⟨"!", suffix⟩, r)
  | _ => none

def tag? (flow : Bool) (text : List Char) : Option (Tag × List Char) := do
  let (tag, r) ← tagAt? text
  if endsWord r || (flow && r.head? == some ',') then return (tag, r) else none

inductive Directive where
  | version (major minor : Nat)
  | tagHandle (handle start : String)
  deriving DecidableEq

def number? (text : List Char) : Option (Nat × List Char) :=
  let digits := text.takeWhile Char.isDigit
  if digits.isEmpty || 9 < digits.length then none
  else some (Numeral.natOfDigits digits, text.dropWhile Char.isDigit)

def version? (text : List Char) : Option (Directive × List Char) := do
  match ← number? (text.dropWhile isBlank) with
  | (major, '.' :: r) =>
    let (minor, r) ← number? r
    return (.version major minor, r)
  | _ => none

def handle? : List Char → Option (String × List Char)
  | '!' :: r =>
    let name := String.ofList (r.takeWhile isWord)
    match r.dropWhile isWord with
    | '!' :: r => some ("!" ++ name ++ "!", r)
    | r => if name.isEmpty then some ("!", r) else none
  | _ => none

def tagHandle? (text : List Char) : Option (Directive × List Char) := do
  let (handle, r) ← handle? (text.dropWhile isBlank)
  if r.head?.any isBlank then
    let (start, r) ← (uri? true (r.dropWhile isBlank)).bind nonempty?
    if endsWord r then return (.tagHandle handle start, r) else none
  else none

def directive? (text : List Char) : Option (Directive × List Char) := do
  let r := text.dropWhile isWord
  if !endsWord r then none
  let (directive, r) ←
    match String.ofList (text.takeWhile isWord) with
    | "YAML" => version? r
    | "TAG" => tagHandle? r
    | _ => none
  return (directive, ← Block.endOfLine? r)

end RecordSchema.Yaml.Property
