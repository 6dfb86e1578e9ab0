import RecordSchema.Yaml.Cursor

namespace RecordSchema.Yaml

structure Page where
  written : List Char
  column : Nat
  spaced : Bool
  /-- The line holds only indentation, and marks that count as such. -/
  fresh : Bool

namespace Page

def blank : Page :=
  ⟨[], 0, true, true⟩

def put (page : Page) (c : Char) : Page :=
  { page with written := c :: page.written, column := if isBreak c then 0 else page.column + 1 }

def putAll (page : Page) (text : List Char) : Page :=
  text.foldl put page

def content (page : Page) (c : Char) : Page :=
  { page.put c with fresh := isBreak c }

def indent (page : Page) (column : Nat) : Page :=
  let stay := page.fresh &&
    (page.column < column || (page.column == column && page.spaced))
  let page := if stay then page else page.put '\n'
  { page.putAll (List.replicate (column - page.column) ' ') with spaced := true, fresh := true }

def mark (page : Page) (text : List Char) (apart opensBlock : Bool) : Page :=
  let page := if apart && !page.spaced then page.put ' ' else page
  { page.putAll text with spaced := false, fresh := page.fresh && opensBlock }

def closeScalar (page : Page) : Page :=
  { page with spaced := false, fresh := false }

def toString (page : Page) : String :=
  String.ofList page.written.reverse

end Page

end RecordSchema.Yaml
