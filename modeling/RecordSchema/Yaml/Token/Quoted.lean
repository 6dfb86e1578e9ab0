import RecordSchema.Number.Numeral
import RecordSchema.Yaml.Fold

namespace RecordSchema.Yaml.Quoted

def singleFrom (done : List Char) (gap : Gap) (place : Place) : List Char → Option Scanned
  | [] => none
  | '\'' :: '\'' :: r =>
    singleFrom ('\'' :: (gap.folded ++ done)) .empty ((place.past '\'').past '\'') r
  | c :: r =>
    if isSpace c then singleFrom done (gap.add c) (place.past c) r
    else if Cursor.atMarker ⟨place, c :: r⟩ then none
    else if c = '\'' then some ⟨(gap.folded ++ done).reverse, ⟨place.past c, r⟩, false⟩
    else singleFrom (c :: (gap.folded ++ done)) .empty (place.past c) r

def escaped? : Char → Option Char
  | '0' => some '\x00'
  | 'a' => some '\x07'
  | 'b' => some '\x08'
  | 't' => some '\t'
  | '\t' => some '\t'
  | 'n' => some '\n'
  | 'v' => some '\x0b'
  | 'f' => some '\x0c'
  | 'r' => some '\r'
  | 'e' => some '\x1b'
  | ' ' => some ' '
  | '"' => some '"'
  | '/' => some '/'
  | '\\' => some '\\'
  | 'N' => some '\u0085'
  | '_' => some '\u00a0'
  | 'L' => some '\u2028'
  | 'P' => some '\u2029'
  | _ => none

def escapeLength? : Char → Option Nat
  | 'x' => some 2
  | 'u' => some 4
  | 'U' => some 8
  | _ => none

def char? (code : Nat) : Option Char :=
  if h : code.isValidChar then some (Char.ofNatAux code h) else none

inductive Escape where
  | outside
  | letter
  | digits (left code : Nat)

def doubleFrom (done : List Char) (gap : Gap) (escape : Escape) (place : Place) :
    List Char → Option Scanned
  | [] => none
  | c :: r =>
    match escape with
    | .letter =>
      if isBreak c then doubleFrom done .joined .outside (place.past c) r
      else match escaped? c, escapeLength? c with
        | some d, _ => doubleFrom (d :: done) .empty .outside (place.past c) r
        | none, some left => doubleFrom done .empty (.digits left 0) (place.past c) r
        | none, none => none
    | .digits left code =>
      match Numeral.digit? 16 c with
      | none => none
      | some d =>
        if left ≤ 1 then
          match char? (code * 16 + d) with
          | some e => doubleFrom (e :: done) .empty .outside (place.past c) r
          | none => none
        else doubleFrom done .empty (.digits (left - 1) (code * 16 + d)) (place.past c) r
    | .outside =>
      if isSpace c then doubleFrom done (gap.add c) .outside (place.past c) r
      else if Cursor.atMarker ⟨place, c :: r⟩ then none
      else if c = '"' then some ⟨(gap.folded ++ done).reverse, ⟨place.past c, r⟩, false⟩
      else if c = '\\' then doubleFrom (gap.folded ++ done) .empty .letter (place.past c) r
      else doubleFrom (c :: (gap.folded ++ done)) .empty .outside (place.past c) r

def scan? (cursor : Cursor) : Option Scanned :=
  match cursor.rest with
  | '\'' :: r => singleFrom [] .empty (cursor.place.past '\'') r
  | '"' :: r => doubleFrom [] .empty .outside (cursor.place.past '"') r
  | _ => none

end RecordSchema.Yaml.Quoted
