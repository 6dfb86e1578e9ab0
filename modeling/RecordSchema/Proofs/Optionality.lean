import RecordSchema.Proofs.Coercion
import RecordSchema.Proofs.FailureChain

namespace RecordSchema

def Optionality.SameDemand (a b : Optionality) : Prop :=
  a = .required ↔ b = .required

def Optionality.Loosened (a b : Optionality) : Prop :=
  a ≠ .required → b = a

instance (a b : Optionality) : Decidable (a.SameDemand b) :=
  inferInstanceAs (Decidable (a = .required ↔ b = .required))

instance (a b : Optionality) : Decidable (a.Loosened b) :=
  inferInstanceAs (Decidable (a ≠ .required → b = a))

variable {r : Optionality → Optionality → Prop}

mutual

/-- Types that differ in the marks of keys only, where marks in the same place are related. -/
inductive FieldType.Remarked (r : Optionality → Optionality → Prop) : FieldType → FieldType → Prop
  | primitive (p : Primitive) : FieldType.Remarked r (.primitive p) (.primitive p)
  | union (u : TypeUnion) : FieldType.Remarked r (.union u) (.union u)
  | custom (c : CustomType) : FieldType.Remarked r (.custom c) (.custom c)
  | nested {schema other : Schema} (h : List.Forall₂ (Field.Remarked r) schema other) :
      FieldType.Remarked r (.nested schema) (.nested other)

inductive Field.Remarked (r : Optionality → Optionality → Prop) : Field → Field → Prop
  | intro {name : String} {a b : Optionality} {type other : FieldType} (mark : r a b)
      (h : FieldType.Remarked r type other) : Field.Remarked r (⟨name, a⟩, type) (⟨name, b⟩, other)

end

def Schema.Remarked (r : Optionality → Optionality → Prop) (schema other : Schema) : Prop :=
  List.Forall₂ (Field.Remarked r) schema other

namespace Field

variable {f g : Field}

theorem Remarked.name (h : f.Remarked r g) : f.1.name = g.1.name := by
  cases h
  rfl

theorem Remarked.mark (h : f.Remarked r g) : r f.1.optionality g.1.optionality := by
  cases h
  assumption

theorem Remarked.type (h : f.Remarked r g) : f.2.Remarked r g.2 := by
  cases h
  assumption

end Field

theorem FieldType.Remarked.display_eq {type other : FieldType} (h : type.Remarked r other) :
    type.display = other.display := by
  cases h <;> rfl

theorem Schema.Remarked.field? {schema other : Schema} (h : schema.Remarked r other)
    (name : String) : Option.Rel (Field.Remarked r) (schema.field? name) (other.field? name) :=
  Fallible.rel_find? h fun f g same => by rw [same.name]

/-- Coercion looks at no mark. -/
theorem FieldType.Remarked.coerce_eq {type other : FieldType} (h : type.Remarked r other) :
    type.coerce = other.coerce := by
  induction type using FieldType.induction generalizing other with
  | primitive | union | custom => cases h; rfl
  | nested schema ih =>
      cases h with
      | nested h =>
          apply coerce_nested_congr
          exact Schema.coerce_eq_of_fields (Schema.Remarked.field? h)
            fun f mem g related => ih f mem related.type

theorem Schema.Remarked.coerce_eq {schema other : Schema} (h : schema.Remarked r other) :
    schema.coerce = other.coerce :=
  coerce_eq_of_fields h.field? fun _ _ _ related => related.type.coerce_eq

def Optionality.Excusing (r : Optionality → Optionality → Prop) : Prop :=
  ∀ a b, r a b → a ≠ .required → b ≠ .required

theorem Field.Remarked.content {f g : Field} (excusing : Optionality.Excusing r)
    (h : f.Remarked r g) {v : Value} (admits : f.2.Admits v → g.2.Admits v) (content : f.Content v) :
    g.Content v := by
  rw [content_iff, FieldKey.excuses_iff] at content ⊢
  exact content.imp (And.imp_left (excusing _ _ h.mark)) admits

theorem Schema.Remarked.conforms_of_fields {schema other : Schema}
    (excusing : Optionality.Excusing r) (h : schema.Remarked r other)
    (each : ∀ f ∈ schema, ∀ g : Field, f.Remarked r g → ∀ v, f.2.Admits v → g.2.Admits v)
    {record : Value} (conforms : schema.Conforms record) : other.Conforms record := by
  rw [conforms_iff_content] at conforms ⊢
  have listed := (List.forall₂_and_left schema other).2 ⟨fun f mem => mem, h⟩
  intro g mem
  obtain ⟨f, -, from_f, related⟩ := Fallible.forall₂_exists_left listed mem
  rw [← related.name]
  exact related.content excusing (each f from_f g related _) (conforms f from_f)

/-- Where fields may be missing that could be missing before, nothing is refused that was not. -/
theorem FieldType.Remarked.admits {type other : FieldType} (excusing : Optionality.Excusing r)
    (h : type.Remarked r other) {v : Value} (admits : type.Admits v) : other.Admits v := by
  induction type using FieldType.induction generalizing other v with
  | primitive | union | custom => cases h; exact admits
  | nested schema ih =>
      cases h with
      | @nested _ other h =>
          have fields {record : Value} (conforms : schema.Conforms record) :
              other.Conforms record :=
            Schema.Remarked.conforms_of_fields excusing h
              (fun f mem g related _ => ih f mem related.type) conforms
          cases admits with
          | mapping conforms => exact .mapping (fields conforms)
          | sequence mappings each => exact .sequence mappings fun item mem => fields (each item mem)

theorem Schema.Remarked.conforms {schema other : Schema} (excusing : Optionality.Excusing r)
    (h : schema.Remarked r other) {record : Value} (conforms : schema.Conforms record) :
    other.Conforms record :=
  h.conforms_of_fields excusing (fun _ _ _ related _ => related.type.admits excusing) conforms

theorem FieldType.Remarked.symm (symmetric : ∀ a b, r a b → r b a) {type other : FieldType}
    (h : type.Remarked r other) : other.Remarked r type := by
  induction type using FieldType.induction generalizing other with
  | primitive | union | custom => cases h; constructor
  | nested schema ih =>
      cases h with
      | @nested _ other h =>
          have listed := (List.forall₂_and_left schema other).2 ⟨fun f mem => mem, h⟩
          refine .nested (List.Forall₂.flip (listed.imp fun f g ⟨mem, related⟩ => ?_))
          cases related with
          | intro mark type => exact .intro (symmetric _ _ mark) (ih _ mem type)

namespace Optionality

theorem excusing_loosened : Excusing Loosened :=
  fun _ _ h optional => (h optional).symm ▸ optional

theorem excusing_sameDemand : Excusing SameDemand :=
  fun _ _ h optional => mt h.2 optional

end Optionality

theorem FieldType.Remarked.symm_same {type other : FieldType}
    (h : type.Remarked Optionality.SameDemand other) :
    other.Remarked Optionality.SameDemand type :=
  h.symm fun _ _ => Iff.symm

theorem Schema.Remarked.symm_same {schema other : Schema}
    (h : schema.Remarked Optionality.SameDemand other) :
    other.Remarked Optionality.SameDemand schema := by
  have flipped := (FieldType.Remarked.nested h).symm_same
  cases flipped with
  | nested flipped => exact flipped

theorem Field.Remarked.rejects_eq {f g : Field} (h : f.Remarked Optionality.SameDemand g)
    (record : Value) : Schema.rejects record f = Schema.rejects record g := by
  have back : g.Remarked Optionality.SameDemand f := by
    cases h with
    | intro mark type => exact .intro mark.symm type.symm_same
  rw [Bool.eq_iff_iff, Schema.rejects_iff, Schema.rejects_iff, h.name]
  refine not_congr ⟨?_, ?_⟩
  · exact h.content Optionality.excusing_sameDemand (h.type.admits Optionality.excusing_sameDemand)
  · exact back.content Optionality.excusing_sameDemand
      (back.type.admits Optionality.excusing_sameDemand)

namespace Schema

variable {schema other : Schema}

theorem Remarked.mismatch? (h : schema.Remarked Optionality.SameDemand other) (record : Value) :
    Option.Rel (Field.Remarked Optionality.SameDemand) (schema.mismatch? record)
      (other.mismatch? record) :=
  Fallible.rel_find? h fun _ _ related => related.rejects_eq record

theorem Remarked.firstMismatch? (h : schema.Remarked Optionality.SameDemand other)
    (records : List Value) : Option.Rel (Field.Remarked Optionality.SameDemand)
      (schema.firstMismatch? records) (other.firstMismatch? records) :=
  Fallible.rel_findSome? h.mismatch? records

end Schema

namespace Offence

structure Remarked (r : Optionality → Optionality → Prop) (o p : Offence) : Prop where
  names : o.path.map FieldKey.name = p.path.map FieldKey.name
  expected : o.expected.Remarked r p.expected
  invalid : o.invalid = p.invalid

theorem Remarked.under {o p : Offence} (h : o.Remarked r p) {key other : FieldKey}
    (name : key.name = other.name) : (o.under key).Remarked r (p.under other) := by
  refine ⟨?_, h.expected, h.invalid⟩
  simp only [Offence.under, List.map_cons, name, h.names]

/-- The descent takes the same way below types that differ in marks only. -/
theorem below_remarked {type other : FieldType} (h : type.Remarked Optionality.SameDemand other)
    (v : Value) : (below type v).Remarked Optionality.SameDemand (below other v) := by
  induction type using FieldType.induction generalizing other v with
  | primitive | union | custom =>
      cases h
      rw [below_of_not_nested v (by simp)]
      exact ⟨rfl, by constructor, rfl⟩
  | nested schema ih =>
      cases h with
      | @nested _ other h =>
          have first := Schema.Remarked.firstMismatch? h (candidates v)
          rcases Fallible.rel_cases first with ⟨left, right⟩ | ⟨f, g, left, right, related⟩
          · rw [below_of_passing left, below_of_passing right]
            exact ⟨rfl, .nested h, rfl⟩
          · have inner := ih f (Schema.mem_of_firstMismatch? left) related.type
              (v.memberOrFirst f.1.name)
            rw [below_of_mismatch left, below_of_mismatch right, ← related.name]
            exact inner.under related.name

end Offence

theorem Schema.Remarked.check_eq_error {schema other : Schema}
    (h : schema.Remarked Optionality.SameDemand other) {record : Value} {e : ValidationError}
    (fails : schema.check record = .error e) : ∃ e', other.check record = .error e' ∧
      e.toOffence.Remarked Optionality.SameDemand e'.toOffence := by
  obtain ⟨f, first, rfl⟩ := (check_eq_error_iff record e).1 fails
  have found := (mismatch?_eq_some_iff schema record f).2 first
  rcases Fallible.rel_cases (h.mismatch? record) with ⟨left, -⟩ | ⟨f', g, left, right, related⟩
  · rw [left] at found
    cases found
  · obtain rfl := Option.some.inj (left.symm.trans found)
    have first' := (mismatch?_eq_some_iff other record g).1 right
    refine ⟨_, (check_eq_error_iff record _).2 ⟨g, first', rfl⟩, ?_⟩
    rw [← related.name]
    exact (Offence.below_remarked related.type _).under related.name

/-- Schemas that differ only in where a mark stands accept the same records, fail at the same place
and coerce alike. Where required fields become optional, accepted records are still accepted, and
coercion does not change. -/
theorem marks_only_excuse (schema other : Schema) :
    (schema.Remarked Optionality.SameDemand other → ∀ record,
      ((∃ c, (Factory.ofSchema schema).create record = .ok c) ↔
        ∃ c, (Factory.ofSchema other).create record = .ok c) ∧
      (∀ e, (Factory.ofSchema schema).create record = .error e →
        ∃ e', (Factory.ofSchema other).create record = .error e' ∧
          e'.path.map FieldKey.name = e.path.map FieldKey.name ∧
          e'.expected.display = e.expected.display ∧ e'.invalid = e.invalid) ∧
      other.coerce record = schema.coerce record) ∧
    (schema.Remarked Optionality.Loosened other → ∀ record,
      ((∃ c, (Factory.ofSchema schema).create record = .ok c) →
        ∃ c, (Factory.ofSchema other).create record = .ok c) ∧
      other.coerce record = schema.coerce record) := by
  simp only [Factory.create_eq_ok_iff, Factory.create_eq_error_iff]
  constructor
  · intro h record
    refine ⟨⟨?_, ?_⟩, fun e fails => ?_, by rw [h.coerce_eq]⟩
    · exact h.conforms Optionality.excusing_sameDemand
    · exact h.symm_same.conforms Optionality.excusing_sameDemand
    · obtain ⟨e', failed, alike⟩ := h.check_eq_error fails
      exact ⟨e', failed, alike.names.symm, alike.expected.display_eq.symm, alike.invalid.symm⟩
  · intro h record
    exact ⟨h.conforms Optionality.excusing_loosened, by rw [h.coerce_eq]⟩

def household (address country active : Optionality) : Schema :=
  [(⟨"address", address⟩, .nested [(⟨"country", country⟩, .nested
    [(⟨"active", active⟩, .primitive .boolean)])])]

theorem remarked_household {a b c a' b' c' : Optionality} (ha : r a a') (hb : r b b')
    (hc : r c c') : (household a b c).Remarked r (household a' b' c') :=
  have active := List.Forall₂.cons (Field.Remarked.intro hc (.primitive .boolean)) .nil
  have country := List.Forall₂.cons (Field.Remarked.intro hb (.nested active)) .nil
  .cons (.intro ha (.nested country)) .nil

/-- Marks change sides on two levels; and a required field two levels down becomes optional. -/
theorem marks_of_household :
    (household .trailing .leading .required).Remarked Optionality.SameDemand
      (household .leading .trailing .required) ∧
    (∃ e, (Factory.ofSchema (household .trailing .leading .required)).create
        (livesIn (.string "NL")) = .error e ∧
      ∃ e', (Factory.ofSchema (household .leading .trailing .required)).create
          (livesIn (.string "NL")) = .error e' ∧
        e'.path.map FieldKey.name = e.path.map FieldKey.name ∧
        e'.expected.display = e.expected.display ∧ e'.invalid = e.invalid) ∧
    (household .trailing .leading .required).Remarked Optionality.Loosened
      (household .trailing .leading .leading) ∧
    ∃ c, (Factory.ofSchema (household .trailing .leading .leading)).create
      (livesIn (.mapping [("active", .bool true)])) = .ok c := by
  have swapped : (household .trailing .leading .required).Remarked Optionality.SameDemand
      (household .leading .trailing .required) :=
    remarked_household (by decide) (by decide) (by decide)
  have loosened : (household .trailing .leading .required).Remarked Optionality.Loosened
      (household .trailing .leading .leading) :=
    remarked_household (by decide) (by decide) (by decide)
  have fails : ∃ e, (Factory.ofSchema (household .trailing .leading .required)).create
      (livesIn (.string "NL")) = .error e := ⟨_, rfl⟩
  obtain ⟨e, fails⟩ := fails
  refine ⟨swapped, ⟨e, fails, ?_⟩, loosened, ?_⟩
  · exact ((marks_only_excuse _ _).1 swapped _).2.1 e fails
  · exact ((marks_only_excuse _ _).2 loosened _).1 ⟨_, rfl⟩

end RecordSchema
