import RecordSchema.Proofs.Coercion
import RecordSchema.Proofs.Collisions
import RecordSchema.Proofs.Equality
import RecordSchema.Proofs.FirstMismatch

namespace RecordSchema

namespace Number

variable {m n : Number}

theorem Alike.toText_eq (h : m.Alike n) : m.toText = n.toText := by
  rcases h.cases with rfl | ⟨s, t, rfl, rfl⟩ <;> rfl

theorem Alike.isNaN_eq (h : m.Alike n) : m.isNaN = n.isNaN := by
  rcases h.cases with rfl | ⟨s, t, rfl, rfl⟩ <;> rfl

theorem Alike.isInteger_eq (h : m.Alike n) : m.isInteger = n.isInteger := by
  rcases h.cases with rfl | ⟨s, t, rfl, rfl⟩
  · rfl
  · rw [isInteger_zero, isInteger_zero]

end Number

theorem Value.itemTexts_eq_map (items : List Value) :
    itemTexts items = items.map fun v => if v.isNullish then "" else v.toText := by
  induction items with
  | nil => rfl
  | cons v r ih => rw [itemTexts, ih, List.map_cons]

namespace Value.EqualBy

variable {a b : Value}

theorem toText_eq (h : a.EqualBy Number.Alike b) : a.toText = b.toText := by
  induction a using Value.induction generalizing b with
  | undefined | null | bool | string | function => cases h; rfl
  | number n =>
      cases h with
      | number h => exact h.toText_eq
  | sequence items ih =>
      cases h with
      | sequence each =>
          rw [Value.toText, Value.toText, itemTexts_eq_map, itemTexts_eq_map,
            Fallible.map_eq_of_forall₂ each]
          intro x mem y h
          rw [h.isNullish_eq, ih x mem h]
  | mapping => cases h; rfl
  | custom typeName v ih =>
      cases h with
      | custom _ h =>
          rw [Value.toText, Value.toText]
          exact ih h

theorem toNumber (h : a.EqualBy Number.Alike b) : a.toNumber.Alike b.toNumber := by
  induction a using Value.induction generalizing b with
  | undefined | null | bool | string | function | mapping => cases h; exact .refl _
  | number n =>
      cases h with
      | number h => exact h
  | sequence items ih =>
      have text := h.toText_eq
      cases h with
      | sequence each =>
          rw [Value.toNumber, Value.toNumber, text]
          exact .refl _
  | custom typeName v ih =>
      cases h with
      | custom _ h =>
          rw [Value.toNumber, Value.toNumber]
          exact ih h

theorem toBool_eq (h : a.EqualBy Number.Alike b) : a.toBool = b.toBool := by
  cases h with
  | number h => exact h.same_eq _
  | _ => rfl

theorem primitive_accepts (h : a.EqualBy Number.Alike b) (p : Primitive) :
    p.accepts a = p.accepts b := by
  cases h with
  | number h =>
      cases p with
      | number => exact congrArg not h.isNaN_eq
      | _ => rfl
  | _ => cases p <;> rfl

theorem typeName_accepts (h : a.EqualBy Number.Alike b) (name : TypeName) :
    name.accepts a = name.accepts b := by
  cases h <;> cases name <;> rfl

theorem union_accepts (h : a.EqualBy Number.Alike b) (u : TypeUnion) :
    u.accepts a = u.accepts b := by
  simp only [TypeUnion.accepts, h.typeName_accepts]

end Value.EqualBy

/-- A custom type that tells no equal values apart: it accepts both or none, and what it constructs
of one it constructs of the other, up to equality. -/
structure CustomType.Congruent (c : CustomType) : Prop where
  accepts : ∀ {a b : Value}, a.EqualBy Number.Alike b → c.accepts a = c.accepts b
  constructs : ∀ {a b : Value} {i : Instance}, a.EqualBy Number.Alike b → c.construct a = .ok i →
    ∃ j, c.construct b = .ok j ∧ i.primitive.EqualBy Number.Alike j.primitive

section Validation

variable {a b : Value}

theorem Field.content_alike {field : Field} {v w : Value} (h : v.EqualBy Number.Alike w)
    (admits : field.2.Admits v ↔ field.2.Admits w) : field.Content v ↔ field.Content w := by
  rw [content_iff, content_iff, FieldKey.excuses, FieldKey.excuses, h.isNullish_eq, admits]

theorem Schema.conforms_alike_of_fields {schema : Schema} (h : a.EqualBy Number.Alike b)
    (distinct : a.WellFormed) (distinct' : b.WellFormed)
    (each : ∀ field ∈ schema, ∀ name, field.2.Admits (a.member name) ↔
      field.2.Admits (b.member name)) : schema.Conforms a ↔ schema.Conforms b := by
  rw [conforms_iff_content, conforms_iff_content]
  refine forall₂_congr fun field mem => ?_
  exact Field.content_alike (h.member distinct distinct' _) (each field mem _)

theorem FieldType.admits_alike {type : FieldType} (congruent : type.EveryCustom CustomType.Congruent)
    (h : a.EqualBy Number.Alike b) (distinct : a.WellFormed) (distinct' : b.WellFormed) :
    type.Admits a ↔ type.Admits b := by
  induction type using FieldType.induction generalizing a b with
  | primitive p =>
      rw [← accepts_iff, ← accepts_iff, accepts, accepts, h.primitive_accepts]
  | union u => rw [← accepts_iff, ← accepts_iff, accepts, accepts, h.union_accepts]
  | custom c =>
      cases congruent with
      | custom congruent =>
          rw [← accepts_iff, ← accepts_iff, accepts, accepts, congruent.accepts h]
  | nested schema ih =>
      cases congruent with
      | nested congruent =>
          have conforms {v w : Value} (h : v.EqualBy Number.Alike w) (distinct : v.WellFormed)
              (distinct' : w.WellFormed) : schema.Conforms v ↔ schema.Conforms w :=
            Schema.conforms_alike_of_fields h distinct distinct' fun field mem name =>
              ih field mem (congruent field mem) (h.member distinct distinct' name)
                (distinct.member name) (distinct'.member name)
          cases h with
          | mapping each order =>
              rw [admits_mapping_iff, admits_mapping_iff]
              exact conforms (.mapping each order) distinct distinct'
          | sequence each =>
              rw [Value.wellFormed_sequence_iff] at distinct distinct'
              rw [admits_sequence_iff, admits_sequence_iff]
              refine Fallible.forall_mem_iff_of_forall₂ each fun v from_xs w from_ys h => ?_
              rw [← Value.isMapping_iff, ← Value.isMapping_iff, h.isMapping_eq,
                conforms h (distinct v from_xs) (distinct' w from_ys)]
          | _ => exact iff_of_false (fun h => by cases h) (fun h => by cases h)

theorem Schema.rejects_alike {schema : Schema} (congruent : schema.EveryCustom CustomType.Congruent)
    (h : a.EqualBy Number.Alike b) (distinct : a.WellFormed) (distinct' : b.WellFormed)
    {field : Field} (mem : field ∈ schema) : rejects a field = rejects b field := by
  rw [Bool.eq_iff_iff, rejects_iff, rejects_iff]
  have member := h.member distinct distinct' field.1.name
  refine not_congr (Field.content_alike member ?_)
  exact FieldType.admits_alike (congruent field mem) member (distinct.member _) (distinct'.member _)

theorem Schema.firstMismatch?_alike {schema : Schema}
    (congruent : schema.EveryCustom CustomType.Congruent) (h : a.EqualBy Number.Alike b)
    (distinct : a.WellFormed) (distinct' : b.WellFormed) :
    schema.firstMismatch? [a] = schema.firstMismatch? [b] :=
  firstMismatch?_congr fun _ mem => rejects_alike congruent h distinct distinct' mem

end Validation

section Coercion

variable {a b c : Value}

theorem Primitive.coerce_alike (p : Primitive) (h : a.EqualBy Number.Alike b) :
    (p.coerce a).EqualBy Number.Alike (p.coerce b) := by
  cases p with
  | boolean =>
      rw [coerce, coerce, h.toBool_eq]
      exact .bool _
  | number => exact .number h.toNumber
  | string =>
      rw [coerce, coerce, h.toText_eq]
      exact .string _
  | object | function => exact h
  | array =>
      have listed : (Value.sequence [a]).EqualBy Number.Alike (.sequence [b]) :=
        .sequence (.cons h .nil)
      cases h with
      | sequence each => exact .sequence each
      | _ => exact listed

theorem TypeUnion.coerce_alike (u : TypeUnion) (h : a.EqualBy Number.Alike b) :
    (u.coerce a).EqualBy Number.Alike (u.coerce b) := by
  rw [coerce, coerce, h.union_accepts]
  split
  · exact h
  · split
    · exact Primitive.coerce_alike _ h
    · exact h

def FieldType.CoercesAlike (type : FieldType) : Prop :=
  ∀ {a b c : Value}, a.EqualBy Number.Alike b → type.coerce a = .ok c →
    ∃ d, type.coerce b = .ok d ∧ c.EqualBy Number.Alike d

theorem FieldType.coercesAlike_of_convert {type : FieldType}
    (direct : ∀ schema, type ≠ .nested schema)
    (each : ∀ {a b c : Value}, a.EqualBy Number.Alike b → type.convert a = .ok c →
      ∃ d, type.convert b = .ok d ∧ c.EqualBy Number.Alike d) : type.CoercesAlike := by
  intro a b c h made
  rw [coerce_of_not_nested direct] at made
  rw [coerce_of_not_nested direct, ← h.isNullish_eq]
  split at made
  · next nullish =>
      cases made
      exact ⟨b, if_pos nullish, h⟩
  · next present =>
      rw [if_neg present]
      exact each h made

namespace Schema

theorem coerceMember_alike {schema : Schema} (each : ∀ field ∈ schema, field.2.CoercesAlike)
    {m n : String × Value} (h : Keyed (Value.EqualBy Number.Alike) m n)
    (made : schema.coerceMember m = .ok c) :
    ∃ d, schema.coerceMember n = .ok d ∧ c.EqualBy Number.Alike d := by
  cases h with
  | intro key h =>
      rw [coerceMember] at made ⊢
      cases named : schema.field? key with
      | none =>
          rw [named] at made
          cases made
          exact ⟨_, rfl, h⟩
      | some field =>
          rw [named] at made
          exact each field (mem_of_field? named) h made

theorem coerce_alike_of_fields {schema : Schema} (each : ∀ field ∈ schema, field.2.CoercesAlike)
    (h : a.EqualBy Number.Alike b) (made : schema.coerce a = .ok c) :
    ∃ d, schema.coerce b = .ok d ∧ c.EqualBy Number.Alike d := by
  have whole := h
  cases h with
  | @mapping members _ others pairs order =>
      obtain ⟨coerced, steps, rfl⟩ := (schema.coerce_mapping_eq_ok_iff members c).1 made
      -- Each member of one record is coerced as the member of its name in the other.
      have step : ∀ m n g, Keyed (Value.EqualBy Number.Alike) m n →
          (g.1 = m.1 ∧ schema.coerceMember m = .ok g.2) →
          ∃ g' : String × Value, (g'.1 = n.1 ∧ schema.coerceMember n = .ok g'.2) ∧
            Keyed (Value.EqualBy Number.Alike) g g' := by
        rintro m n ⟨_, v⟩ h ⟨rfl, made⟩
        obtain ⟨w, made', alike⟩ := coerceMember_alike each h made
        exact ⟨(n.1, w), ⟨rfl, made'⟩, h.key ▸ .intro m.1 alike⟩
      have paired : UpToOrder (Keyed (Value.EqualBy Number.Alike)) members others :=
        ⟨_, pairs, order⟩
      obtain ⟨coerced', steps', alike⟩ := paired.exists_steps step steps
      exact ⟨.mapping coerced', (schema.coerce_mapping_eq_ok_iff others _).2 ⟨_, steps', rfl⟩,
        (Value.equalBy_mapping_iff _ _).2 alike⟩
  | _ =>
      cases made
      exact ⟨_, rfl, whole⟩

end Schema

theorem FieldType.coercesAlike_nested {schema : Schema}
    (each : ∀ field ∈ schema, field.2.CoercesAlike) : CoercesAlike (.nested schema) := by
  have fields (v w made : Value) (h : v.EqualBy Number.Alike w) (steps : schema.coerce v = .ok made) :
      ∃ d, schema.coerce w = .ok d ∧ made.EqualBy Number.Alike d :=
    Schema.coerce_alike_of_fields each h steps
  intro a b c h made
  have whole := h
  cases h with
  | sequence items =>
      rw [coerce_nested_sequence] at made ⊢
      obtain ⟨coerced, steps, rfl⟩ := Fallible.map_eq_ok.1 made
      obtain ⟨coerced', steps', alike⟩ :=
        Fallible.forall₂_steps fields items (Fallible.mapM_eq_ok.1 steps)
      exact ⟨.sequence coerced',
        Fallible.map_eq_ok.2 ⟨coerced', Fallible.mapM_eq_ok.2 steps', rfl⟩, .sequence alike⟩
  | _ =>
      rw [coerce_nested_of_not_sequence schema (by simp)] at made ⊢
      exact fields _ _ _ whole made

theorem FieldType.coercesAlike {type : FieldType} (congruent : type.EveryCustom CustomType.Congruent) :
    type.CoercesAlike := by
  induction type using FieldType.induction with
  | primitive p =>
      refine coercesAlike_of_convert (by simp) fun h made => ?_
      cases made
      exact ⟨_, rfl, p.coerce_alike h⟩
  | union u =>
      refine coercesAlike_of_convert (by simp) fun h made => ?_
      cases made
      exact ⟨_, rfl, u.coerce_alike h⟩
  | custom c =>
      cases congruent with
      | custom congruent =>
          refine coercesAlike_of_convert (by simp) fun h made => ?_
          obtain ⟨i, constructed, rfl⟩ := Fallible.map_eq_ok.1 made
          obtain ⟨j, constructed', alike⟩ := congruent.constructs h constructed
          exact ⟨j.primitive, Fallible.map_eq_ok.2 ⟨j, constructed', rfl⟩, alike⟩
  | nested schema ih =>
      cases congruent with
      | nested congruent =>
          exact coercesAlike_nested fun field mem => ih field mem (congruent field mem)

theorem Schema.coerce_alike {schema : Schema} (congruent : schema.EveryCustom CustomType.Congruent)
    (h : a.EqualBy Number.Alike b) (made : schema.coerce a = .ok c) :
    ∃ d, schema.coerce b = .ok d ∧ c.EqualBy Number.Alike d :=
  coerce_alike_of_fields (fun field mem => FieldType.coercesAlike (congruent field mem)) h made

end Coercion

namespace IntegerNumber

theorem ofNumber_eq_ok_iff (n : Number) (i : IntegerNumber) :
    ofNumber n = .ok i ↔ i.number = n := by
  rw [ofNumber]
  split
  · next integer =>
      rw [Except.ok.injEq]
      constructor
      · rintro rfl
        rfl
      · rintro rfl
        rfl
  · next other =>
      refine iff_of_false (by simp) ?_
      rintro rfl
      exact other i.isInteger

theorem ofValue_alike {a b : Value} {i : IntegerNumber} (h : a.EqualBy Number.Alike b)
    (made : ofValue a = .ok i) : ∃ j, ofValue b = .ok j ∧ i.number.Alike j.number := by
  induction a using Value.induction generalizing b with
  | number n =>
      cases h with
      | @number _ m h =>
          have same := (ofNumber_eq_ok_iff n i).1 made
          have integer : m.isInteger = true := by
            rw [← h.isInteger_eq, ← same]
            exact i.isInteger
          exact ⟨⟨m, integer⟩, (ofNumber_eq_ok_iff m _).2 rfl, same ▸ h⟩
  | custom typeName v ih =>
      cases h with
      | custom _ h =>
          rw [ofValue] at made ⊢
          split at made
          · next named =>
              rw [if_pos named]
              exact ih h made
          · cases made
  | undefined | null | bool | string | sequence | mapping | function => cases made

theorem congruent : type.Congruent where
  accepts {a b} h := by
    cases h with
    | number h => exact h.isInteger_eq
    | _ => rfl
  constructs {a b i} h made := by
    obtain ⟨n, integer, rfl⟩ := Fallible.map_eq_ok.1 made
    obtain ⟨m, integer', alike⟩ := ofValue_alike h integer
    exact ⟨m.toInstance, Fallible.map_eq_ok.2 ⟨m, integer', rfl⟩, .number alike⟩

end IntegerNumber

section Flattening

variable {r : Number → Number → Prop} {a b : Value}

namespace Value

namespace EqualBy

theorem dotFree (h : a.EqualBy r b) (free : a.DotFree) : b.DotFree := by
  induction a using induction_entries generalizing b with
  | step a ih =>
      rw [dotFree_iff_entries] at free ⊢
      intro n mem
      obtain ⟨m, from_a, related⟩ := h.entries.exists_left mem
      obtain ⟨key, inner⟩ := free m from_a
      exact ⟨related.key ▸ key, ih m from_a related.content inner⟩

theorem leaves (h : a.EqualBy r b) : UpToOrder (Keyed (EqualBy r)) a.leaves b.leaves := by
  induction a using induction_entries generalizing b with
  | step a ih =>
      rw [leaves_eq_flatMap, leaves_eq_flatMap]
      refine h.entries.with_mem.flatMap ?_
      rintro m n ⟨mem, -, ⟨key, related⟩⟩
      rw [hang, hang, ← related.isContainer_eq]
      split
      · refine (ih _ mem related).map ?_
        rintro l k ⟨path, alike⟩
        exact .intro (key :: path) alike
      · exact .of_forall₂ (.cons (.intro [key] related) .nil)

theorem flatten (h : a.EqualBy r b) (distinct : a.WellFormed) (distinct' : b.WellFormed)
    (free : a.DotFree) (base : Option String) :
    UpToOrder (Keyed (EqualBy r)) (a.flatten base) (b.flatten base) := by
  rw [flatten_base, flatten_base base b, flatten_eq_map_leaves distinct free,
    flatten_eq_map_leaves distinct' (h.dotFree free), List.map_map, List.map_map]
  refine h.leaves.map ?_
  rintro l k ⟨path, alike⟩
  exact .intro _ alike

end EqualBy

end Value

end Flattening

/-- Equal records have the same first mismatch, are coerced to equal records or both refused, and
without dots in names are flattened to equal mappings. -/
theorem equal_records_treated_alike {schema : Schema} {a b : Value}
    (onlyInt : schema.EveryCustom (· = IntegerNumber.type)) (distinct : a.WellFormed)
    (distinct' : b.WellFormed) (same : a.same b = true) :
    schema.firstMismatch? [a] = schema.firstMismatch? [b] ∧
    ((∃ e e', schema.coerce a = .error e ∧ schema.coerce b = .error e') ∨
      ∃ c d, schema.coerce a = .ok c ∧ schema.coerce b = .ok d ∧ c.EqualBy Number.Alike d) ∧
    (a.DotFree → ∀ base,
      (Value.mapping (a.flatten base)).same (.mapping (b.flatten base)) = true) := by
  have equal := (Value.same_iff distinct distinct').1 same
  have alike : a.EqualBy Number.Alike b := equal.imp fun _ _ => .inl
  have congruent : schema.EveryCustom CustomType.Congruent := fun field mem =>
    (onlyInt field mem).imp fun _ int => int ▸ IntegerNumber.congruent
  refine ⟨Schema.firstMismatch?_alike congruent alike distinct distinct', ?_, fun free base => ?_⟩
  · cases here : schema.coerce a with
    | ok c =>
        obtain ⟨d, there, made⟩ := Schema.coerce_alike congruent alike here
        exact .inr ⟨c, d, rfl, there, made⟩
    | error e =>
        cases there : schema.coerce b with
        | error e' => exact .inl ⟨e, e', rfl, rfl⟩
        | ok d =>
            have back := alike.symm fun _ _ => Number.Alike.symm
            obtain ⟨c, made, -⟩ := Schema.coerce_alike congruent back there
            rw [here] at made
            cases made
  · rw [Value.same_iff (distinct.flatten base) (distinct'.flatten base)]
    exact (Value.equalBy_mapping_iff _ _).2 (equal.flatten distinct distinct' free base)

namespace Elevator

def stop : Schema :=
  [(⟨"floor", .required⟩, .custom IntegerNumber.type), (⟨"load", .leading⟩, .primitive .number)]

def route : Schema :=
  [(⟨"stops", .required⟩, .nested stop)]

def up : Value :=
  .mapping [("stops", .sequence [.mapping
    [("floor", .number (.zero false)), ("load", .mapping [])]])]

def down : Value :=
  .mapping [("stops", .sequence [.mapping
    [("load", .mapping []), ("floor", .number (.zero true))]])]

/-- Members change places, one zero is negative, and the load becomes NaN. -/
theorem up_and_down_treated_alike :
    up.same down = true ∧ route.firstMismatch? [up] = route.firstMismatch? [down] ∧
    (∃ c d, route.coerce up = .ok c ∧ route.coerce down = .ok d ∧ c.EqualBy Number.Alike d) ∧
    (Value.mapping (up.flatten (some "r"))).same (.mapping (down.flatten (some "r"))) = true := by
  have onlyInt : route.EveryCustom (· = IntegerNumber.type) :=
    List.forall_mem_singleton.2
      (.nested (List.forall_mem_cons.2 ⟨.custom rfl, List.forall_mem_singleton.2 (.primitive _)⟩))
  have distinct : up.WellFormed := by
    simp [up, Value.WellFormed, Value.WellFormedItems, Value.WellFormedMembers, Members.names]
  have distinct' : down.WellFormed := by
    simp [down, Value.WellFormed, Value.WellFormedItems, Value.WellFormedMembers, Members.names]
  have free : up.DotFree := by
    have floor : (Value.number (.zero false)).DotFree := .leaf rfl
    simp [up, Value.dotFree_mapping_iff, Value.dotFree_sequence_iff, Members.names, floor]
  have same : up.same down = true := by decide +kernel
  have parsed : (route.coerce up).isOk = true := by decide +kernel
  obtain ⟨mismatch, answers, flat⟩ := equal_records_treated_alike onlyInt distinct distinct' same
  refine ⟨same, mismatch, ?_, flat free _⟩
  rcases answers with ⟨e, -, refused, -⟩ | coerced
  · rw [refused] at parsed
    cases parsed
  · exact coerced

end Elevator

end RecordSchema
