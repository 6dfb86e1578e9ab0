import Mathlib.Data.List.Nodup
import RecordSchema.Proofs.Fallible
import RecordSchema.Schema.Compile

namespace RecordSchema

namespace FieldKey

/-- A descriptor marks a field as optional by one question mark, the one at its end if there is
one. -/
inductive Marks : String → FieldKey → Prop
  | trailing (name : String) : Marks (name ++ "?") ⟨name, .trailing⟩
  | leading {name : String} (last : ∀ other, "?" ++ name ≠ other ++ "?") :
      Marks ("?" ++ name) ⟨name, .leading⟩
  | required {name : String} (last : ∀ other, name ≠ other ++ "?")
      (first : ∀ other, name ≠ "?" ++ other) : Marks name ⟨name, .required⟩

theorem Marks.display {descriptor : String} {key : FieldKey} (h : Marks descriptor key) :
    key.display = descriptor := by
  cases h <;> rfl

theorem getLast?_eq_mark_iff (text : String) :
    text.toList.getLast? = some '?' ↔ ∃ name, text = name ++ "?" := by
  rw [List.getLast?_eq_some_iff]
  constructor
  · rintro ⟨chars, split⟩
    refine ⟨String.ofList chars, ?_⟩
    apply String.toList_inj.1
    simp [split]
  · rintro ⟨name, rfl⟩
    exact ⟨name.toList, by simp⟩

theorem head?_eq_mark_iff (text : String) :
    text.toList.head? = some '?' ↔ ∃ name, text = "?" ++ name := by
  rw [List.head?_eq_some_iff]
  constructor
  · rintro ⟨chars, split⟩
    refine ⟨String.ofList chars, ?_⟩
    apply String.toList_inj.1
    simp [split]
  · rintro ⟨name, rfl⟩
    exact ⟨name.toList, by simp⟩

theorem marks_ofMarked (descriptor : String) : Marks descriptor (ofMarked descriptor) := by
  by_cases last : ∃ name, descriptor = name ++ "?"
  · obtain ⟨name, rfl⟩ := last
    have key : ofMarked (name ++ "?") = ⟨name, .trailing⟩ := by simp [ofMarked]
    rw [key]
    exact .trailing name
  · have noLast := mt (getLast?_eq_mark_iff descriptor).1 last
    by_cases first : ∃ name, descriptor = "?" ++ name
    · obtain ⟨name, rfl⟩ := first
      have key : ofMarked ("?" ++ name) = ⟨name, .leading⟩ := by
        rw [ofMarked, if_neg noLast]
        simp
      rw [key]
      exact .leading (not_exists.1 last)
    · have noFirst := mt (head?_eq_mark_iff descriptor).1 first
      rw [ofMarked, if_neg noLast, if_neg noFirst]
      exact .required (not_exists.1 last) (not_exists.1 first)

theorem Marks.ofMarked_eq {descriptor : String} {key : FieldKey} (h : Marks descriptor key) :
    ofMarked descriptor = key := by
  cases h with
  | trailing name => simp [ofMarked]
  | leading last =>
      rw [ofMarked, if_neg (mt (getLast?_eq_mark_iff _).1 (not_exists.2 last))]
      simp
  | required last first =>
      rw [ofMarked, if_neg (mt (getLast?_eq_mark_iff _).1 (not_exists.2 last)),
        if_neg (mt (head?_eq_mark_iff _).1 (not_exists.2 first))]

theorem parse_eq_ok_iff (descriptor : String) (key : FieldKey) :
    parse descriptor = .ok key ↔ Marks descriptor key ∧ key.name ≠ "" := by
  constructor
  · intro h
    rw [parse] at h
    split at h
    · cases h
    · next named =>
        cases h
        exact ⟨marks_ofMarked descriptor, by simpa using named⟩
  · rintro ⟨marks, named⟩
    simp [parse, marks.ofMarked_eq, named]

theorem parse_eq_error_iff (descriptor : String) (e : SchemaError) :
    parse descriptor = .error e ↔
      (∃ key, Marks descriptor key ∧ key.name = "") ∧ e = .emptyFieldName := by
  constructor
  · intro h
    rw [parse] at h
    split at h
    · next unnamed =>
        cases h
        exact ⟨⟨_, marks_ofMarked descriptor, by simpa using unnamed⟩, rfl⟩
    · cases h
  · rintro ⟨⟨key, marks, unnamed⟩, rfl⟩
    simp [parse, marks.ofMarked_eq, unnamed]

end FieldKey

theorem find?_named_eq_some_iff {α : Type} {all : List α} {name : α → String}
    (distinct : (all.map name).Nodup) (text : String) (x : α) :
    all.find? (fun y => name y == text) = some x ↔ x ∈ all ∧ name x = text := by
  constructor
  · intro found
    have named := List.find?_some found
    exact ⟨List.mem_of_find?_eq_some found, eq_of_beq named⟩
  · rintro ⟨mem, rfl⟩
    cases found : all.find? fun y => name y == name x with
    | none =>
        have absent := List.find?_eq_none.1 found x mem
        simp at absent
    | some y =>
        have named := List.find?_some found
        have from_y := List.mem_of_find?_eq_some found
        rw [List.inj_on_of_nodup_map distinct from_y mem (eq_of_beq named)]

theorem Primitive.mem_all (p : Primitive) : p ∈ all := by
  cases p <;> decide

theorem Primitive.ofName?_eq_some_iff (text : String) (p : Primitive) :
    ofName? text = some p ↔ p.name = text := by
  rw [ofName?, find?_named_eq_some_iff (by decide), and_iff_right p.mem_all]

def Primitive.names : List String :=
  ["Boolean", "Number", "String", "Function", "Object", "Array"]

theorem Primitive.exists_name_iff (text : String) :
    (∃ p : Primitive, p.name = text) ↔ text ∈ names := by
  have listed : names = all.map name := rfl
  rw [listed, List.mem_map]
  simp only [mem_all, true_and]

theorem Primitive.ofName?_eq_none_iff (text : String) : ofName? text = none ↔ text ∉ names := by
  rw [← exists_name_iff, not_exists]
  simp only [Option.eq_none_iff_forall_not_mem, Option.mem_def, ofName?_eq_some_iff]

theorem TypeName.mem_all (t : TypeName) : t ∈ all := by
  cases t <;> decide

theorem TypeName.ofName?_eq_some_iff (text : String) (t : TypeName) :
    ofName? text = some t ↔ t.name = text := by
  rw [ofName?, find?_named_eq_some_iff (by decide), and_iff_right t.mem_all]

def TypeName.names : List String :=
  ["string", "number", "boolean", "object", "array", "function", "mixed"]

theorem TypeName.exists_name_iff (text : String) :
    (∃ t : TypeName, t.name = text) ↔ text ∈ names := by
  have listed : names = all.map name := rfl
  rw [listed, List.mem_map]
  simp only [mem_all, true_and]

theorem TypeName.ofName?_eq_none_iff (text : String) : ofName? text = none ↔ text ∉ names := by
  rw [← exists_name_iff, not_exists]
  simp only [Option.eq_none_iff_forall_not_mem, Option.mem_def, ofName?_eq_some_iff]

namespace TypeUnion

/-- A text and its parts: bars stand between them, and blanks may stand around each. -/
inductive Barred : List Char → List String → Prop
  | last {text : List Char} {part : String} (plain : '|' ∉ text)
      (trimmed : Text.Trimmed text part.toList) : Barred text [part]
  | bar {text rest : List Char} {part : String} {parts : List String} (plain : '|' ∉ text)
      (trimmed : Text.Trimmed text part.toList) (more : Barred rest parts) :
      Barred (text ++ '|' :: rest) (part :: parts)

theorem Barred.parts_eq {text : List Char} {names : List String} (h : Barred text names) :
    parts (String.ofList text) = names := by
  rw [parts, String.toList_ofList]
  induction h with
  | last plain trimmed =>
      rw [List.splitOn_eq_singleton plain, List.map_singleton, trimmed.trim_eq, String.ofList_toList]
  | bar plain trimmed _ ih =>
      rw [List.splitOn_append_cons_self, List.map_append, ih, List.splitOn_eq_singleton plain,
        List.map_singleton, trimmed.trim_eq, String.ofList_toList, List.singleton_append]

theorem exists_barred (text : List Char) : ∃ names, Barred text names := by
  have trimmed (text : List Char) : Text.Trimmed text (String.ofList (Text.trim text)).toList := by
    rw [String.toList_ofList]
    exact Text.trimmed_trim text
  -- By the length of the text: the first bar leaves a shorter one behind it.
  by_cases bar : '|' ∈ text
  · obtain ⟨front, rest, split, plain⟩ := List.eq_append_cons_of_mem bar
    have shorter : rest.length < text.length := by
      rw [split, List.length_append, List.length_cons]
      omega
    obtain ⟨names, more⟩ := exists_barred rest
    rw [split]
    exact ⟨_, .bar plain (trimmed front) more⟩
  · exact ⟨_, .last bar (trimmed text)⟩
termination_by text.length

theorem barred_iff (text : String) (names : List String) :
    Barred text.toList names ↔ parts text = names := by
  have read {names : List String} (h : Barred text.toList names) : parts text = names := by
    rw [← String.ofList_toList (s := text)]
    exact h.parts_eq
  constructor
  · exact read
  · rintro rfl
    obtain ⟨names, barred⟩ := exists_barred text.toList
    rwa [read barred]

def part (text part : String) : Except SchemaError TypeName :=
  match TypeName.ofName? part with
  | none => .error (.unknownTypeName part text)
  | some t => .ok t

theorem part_eq_ok_iff (text p : String) (t : TypeName) : part text p = .ok t ↔ t.name = p := by
  rw [← TypeName.ofName?_eq_some_iff, part]
  cases TypeName.ofName? p <;> simp

theorem part_eq_error_iff (text p : String) (e : SchemaError) :
    part text p = .error e ↔ p ∉ TypeName.names ∧ e = .unknownTypeName p text := by
  rw [← TypeName.ofName?_eq_none_iff, part]
  cases TypeName.ofName? p <;> simp [eq_comm]

theorem memberNames_eq_mapM (text : String) (parts : List String) :
    memberNames text parts = parts.mapM (part text) := by
  induction parts with
  | nil => rfl
  | cons p r ih =>
      rw [memberNames, ih, List.mapM_cons, part]
      cases TypeName.ofName? p <;> rfl

theorem parse_eq_ok_iff (text : String) (u : TypeUnion) :
    parse text = .ok u ↔ u.text = text ∧ ∃ names, Barred text.toList names ∧
      List.Forall₂ (fun p t => TypeName.name t = p) names u.members := by
  simp only [barred_iff, exists_eq_left']
  rw [parse, Fallible.map_eq_ok, memberNames_eq_mapM]
  simp only [Fallible.mapM_eq_ok, part_eq_ok_iff]
  constructor
  · rintro ⟨members, each, rfl⟩
    exact ⟨rfl, each⟩
  · rintro ⟨rfl, each⟩
    exact ⟨u.members, each, rfl⟩

theorem exists_parse_iff (text : String) : (∃ u, parse text = .ok u) ↔
    ∃ names, Barred text.toList names ∧ ∀ p ∈ names, p ∈ TypeName.names := by
  simp only [parse_eq_ok_iff, ← TypeName.exists_name_iff]
  constructor
  · rintro ⟨u, -, names, barred, each⟩
    refine ⟨names, barred, fun p mem => ?_⟩
    obtain ⟨t, -, named⟩ := Fallible.forall₂_exists_left each.flip mem
    exact ⟨t, named⟩
  · rintro ⟨names, barred, each⟩
    obtain ⟨members, related⟩ := Fallible.exists_forall₂ each
    exact ⟨⟨text, members⟩, rfl, names, barred, related⟩

theorem parse_eq_error_iff (text : String) (e : SchemaError) :
    parse text = .error e ↔ ∃ before p after, Barred text.toList (before ++ p :: after) ∧
      (∀ b ∈ before, b ∈ TypeName.names) ∧ p ∉ TypeName.names ∧ e = .unknownTypeName p text := by
  rw [parse, Fallible.map_eq_error, memberNames_eq_mapM]
  simp only [Fallible.mapM_eq_error, part_eq_ok_iff, part_eq_error_iff, barred_iff,
    TypeName.exists_name_iff]

end TypeUnion

namespace Registry

variable {registry : Registry}

theorem find?_eq_none_iff (text : String) :
    registry.find? text = none ↔ ∀ c ∈ registry.types, c.name ≠ text := by
  simp [find?]

/-- The texts that name a type: names of primitives, names of registered types, and names of types
between bars. -/
inductive NamesType (registry : Registry) : String → Prop
  | primitive {text : String} (mem : text ∈ Primitive.names) : NamesType registry text
  | custom {c : CustomType} (mem : c ∈ registry.types) : NamesType registry c.name
  | union {text : String} {parts : List String} (split : TypeUnion.Barred text.toList parts)
      (known : ∀ p ∈ parts, p ∈ TypeName.names) : NamesType registry text

/-- A text that is no name is read as a union, and blamed for its first part that is no type. -/
inductive NamesNone (registry : Registry) : String → SchemaError → Prop
  | intro {text part : String} {before after : List String}
      (primitive : text ∉ Primitive.names) (custom : ∀ c ∈ registry.types, c.name ≠ text)
      (split : TypeUnion.Barred text.toList (before ++ part :: after))
      (known : ∀ b ∈ before, b ∈ TypeName.names) (unknown : part ∉ TypeName.names) :
      NamesNone registry text (.unknownTypeName part text)

theorem resolve_of_unnamed {text : String} (primitive : text ∉ Primitive.names)
    (custom : ∀ c ∈ registry.types, c.name ≠ text) :
    registry.resolve text = (TypeUnion.parse text).map .union := by
  rw [resolve, (Primitive.ofName?_eq_none_iff text).2 primitive, (find?_eq_none_iff text).2 custom]

theorem display_of_resolve {text : String} {type : FieldType}
    (h : registry.resolve text = .ok type) :
    type.display = text ∧ ∀ inner, type ≠ .nested inner := by
  rw [resolve] at h
  split at h
  · next p named =>
      cases h
      exact ⟨(Primitive.ofName?_eq_some_iff text p).1 named, fun _ => by simp⟩
  · split at h
    · next c found =>
        cases h
        have named := List.find?_some found
        exact ⟨eq_of_beq named, fun _ => by simp⟩
    · obtain ⟨u, parsed, rfl⟩ := Fallible.map_eq_ok.1 h
      exact ⟨((TypeUnion.parse_eq_ok_iff text u).1 parsed).1, fun _ => by simp⟩

theorem resolve_of_named {text : String}
    (named : text ∈ Primitive.names ∨ ∃ c ∈ registry.types, c.name = text) :
    ∃ type, registry.resolve text = .ok type := by
  rw [resolve]
  cases primitive : Primitive.ofName? text with
  | some p => exact ⟨.primitive p, rfl⟩
  | none =>
      cases custom : registry.find? text with
      | some c => exact ⟨.custom c, rfl⟩
      | none =>
          rcases named with named | ⟨c, mem, named⟩
          · exact absurd named ((Primitive.ofName?_eq_none_iff text).1 primitive)
          · exact absurd named ((find?_eq_none_iff text).1 custom c mem)

theorem named_or_unnamed (registry : Registry) (text : String) :
    (text ∈ Primitive.names ∨ ∃ c ∈ registry.types, c.name = text) ∨
      text ∉ Primitive.names ∧ ∀ c ∈ registry.types, c.name ≠ text := by
  by_cases named : text ∈ Primitive.names ∨ ∃ c ∈ registry.types, c.name = text
  · exact .inl named
  · rw [not_or] at named
    simp only [not_exists, not_and] at named
    exact .inr named

theorem exists_resolve_iff (text : String) :
    (∃ type, registry.resolve text = .ok type) ↔ registry.NamesType text := by
  rcases named_or_unnamed registry text with named | ⟨primitive, custom⟩
  · refine iff_of_true (resolve_of_named named) ?_
    rcases named with mem | ⟨c, mem, rfl⟩
    · exact .primitive mem
    · exact .custom mem
  · rw [resolve_of_unnamed primitive custom]
    constructor
    · rintro ⟨type, h⟩
      obtain ⟨u, parsed, -⟩ := Fallible.map_eq_ok.1 h
      obtain ⟨parts, split, known⟩ := (TypeUnion.exists_parse_iff text).1 ⟨u, parsed⟩
      exact .union split known
    · intro names
      cases names with
      | primitive mem => exact absurd mem primitive
      | custom mem => exact absurd rfl (custom _ mem)
      | union split known =>
          obtain ⟨u, parsed⟩ := (TypeUnion.exists_parse_iff text).2 ⟨_, split, known⟩
          exact ⟨.union u, Fallible.map_eq_ok.2 ⟨u, parsed, rfl⟩⟩

theorem resolve_eq_error_iff (text : String) (e : SchemaError) :
    registry.resolve text = .error e ↔ registry.NamesNone text e := by
  constructor
  · intro h
    rcases named_or_unnamed registry text with named | ⟨primitive, custom⟩
    · obtain ⟨type, resolved⟩ := resolve_of_named named
      rw [resolved] at h
      cases h
    · rw [resolve_of_unnamed primitive custom, Fallible.map_eq_error,
        TypeUnion.parse_eq_error_iff] at h
      obtain ⟨before, part, after, split, known, unknown, rfl⟩ := h
      exact ⟨primitive, custom, split, known, unknown⟩
  · rintro ⟨primitive, custom, split, known, unknown⟩
    rw [resolve_of_unnamed primitive custom, Fallible.map_eq_error, TypeUnion.parse_eq_error_iff]
    exact ⟨_, _, _, split, known, unknown, rfl⟩

end Registry

end RecordSchema
