import RecordSchema.Yaml.Fold

namespace RecordSchema.Yaml.Plain

def isFlowIndicator (c : Char) : Bool :=
  c == ',' || c == '[' || c == ']' || c == '\x7b' || c == '\x7d'

def isIndicator (c : Char) : Bool :=
  "-?:,[]\x7b\x7d#&*!|>'\"%@".toList.contains c || c.toNat == 96

def starts (flow : Bool) : List Char → Bool
  | [] => false
  | c :: r =>
    !(isSpace c || isIndicator c) ||
      (c == '-' && !(r.head?.any isBlank)) ||
      (!flow && (c == '?' || c == ':') && !endsWord r)

def isStuckColon : List Char → Bool
  | ':' :: c :: _ => isFlowIndicator c || c == '?'
  | _ => false

def ends (flow : Bool) : List Char → Bool
  | [] => true
  | c :: r => (c == ':' && endsWord r) || (flow && isFlowIndicator c)

def endsAfterGap (flow : Bool) (indent : Int) (place : Place) (text : List Char) : Bool :=
  (!flow && decide ((place.column : Int) < indent)) ||
    Cursor.atMarker ⟨place, text⟩ || text.head? == some '#'

def scanFrom (flow : Bool) (indent : Int) (done : List Char) (gap : Gap) (place : Place) :
    List Char → Option Scanned
  | [] => some ⟨done.reverse, ⟨place, []⟩, gap.broken⟩
  | c :: r =>
    if isSpace c then
      if c = '\t' ∧ gap.broken ∧ (place.column : Int) < indent then none
      else scanFrom flow indent done (gap.add c) (place.past c) r
    else if !gap.isEmpty && endsAfterGap flow indent place (c :: r) then
      some ⟨done.reverse, ⟨place, c :: r⟩, gap.broken⟩
    else if flow && isStuckColon (c :: r) then none
    else if ends flow (c :: r) then some ⟨done.reverse, ⟨place, c :: r⟩, gap.broken⟩
    else scanFrom flow indent (c :: (gap.folded ++ done)) .empty (place.past c) r

def scan? (flow : Bool) (indent : Int) (cursor : Cursor) : Option Scanned :=
  scanFrom flow indent [] .empty cursor.place cursor.rest

end RecordSchema.Yaml.Plain
