import Mathlib.Data.List.Nodup
import RecordSchema.Proofs.Fallible
import RecordSchema.Proofs.Induction
import RecordSchema.Schema.Compile

namespace RecordSchema

namespace FieldType

inductive EveryCustom (p : CustomType → Prop) : FieldType → Prop
  | primitive (x : Primitive) : EveryCustom p (.primitive x)
  | union (u : TypeUnion) : EveryCustom p (.union u)
  | nested {schema : Schema} (h : ∀ field ∈ schema, EveryCustom p field.2) :
      EveryCustom p (.nested schema)
  | custom {c : CustomType} (h : p c) : EveryCustom p (.custom c)

theorem EveryCustom.imp {p q : CustomType → Prop} (weaker : ∀ c, p c → q c) {type : FieldType}
    (h : type.EveryCustom p) : type.EveryCustom q := by
  induction h with
  | primitive x => exact .primitive x
  | union u => exact .union u
  | nested _ ih => exact .nested ih
  | custom h => exact .custom (weaker _ h)

inductive WellFormed : FieldType → Prop
  | primitive (x : Primitive) : WellFormed (.primitive x)
  | union (u : TypeUnion) : WellFormed (.union u)
  | nested {schema : Schema} (distinct : schema.names.Nodup)
      (h : ∀ field ∈ schema, WellFormed field.2) : WellFormed (.nested schema)
  | custom (c : CustomType) : WellFormed (.custom c)

end FieldType

namespace Schema

structure WellFormed (schema : Schema) : Prop where
  distinct : schema.names.Nodup
  fields : ∀ field ∈ schema, field.2.WellFormed

def EveryCustom (p : CustomType → Prop) (schema : Schema) : Prop :=
  ∀ field ∈ schema, field.2.EveryCustom p

theorem mem_of_field? {schema : Schema} {name : String} {field : Field}
    (h : schema.field? name = some field) : field ∈ schema :=
  List.mem_of_find?_eq_some h

theorem name_of_field? {schema : Schema} {name : String} {field : Field}
    (h : schema.field? name = some field) : field.1.name = name := by
  have named := List.find?_some h
  exact eq_of_beq named

theorem field?_of_mem {schema : Schema} (distinct : schema.names.Nodup) {field : Field}
    (mem : field ∈ schema) : schema.field? field.1.name = some field := by
  cases found : schema.field? field.1.name with
  | none => exact absurd rfl (List.find?_eq_none.1 found field mem ∘ beq_iff_eq.2)
  | some other =>
      have same := List.inj_on_of_nodup_map distinct (mem_of_field? found) mem (name_of_field? found)
      rw [same]

theorem buildAfter_cons_eq_ok {seen : List String} {descriptor : String} {spec : TypeSpec}
    {fields : List (String × TypeSpec)} {schema : Schema} :
    buildAfter seen ((descriptor, spec) :: fields) = .ok schema ↔
      ∃ key type rest, FieldKey.parse descriptor = .ok key ∧ key.name ∉ seen ∧
        spec.compile = .ok type ∧ buildAfter (key.name :: seen) fields = .ok rest ∧
        schema = (key, type) :: rest := by
  rw [buildAfter, Fallible.bind_eq_ok]
  refine exists_congr fun key => ?_
  by_cases taken : key.name ∈ seen
  · simp [taken, throw, throwThe, MonadExceptOf.throw, bind, Except.bind]
  · simp only [List.contains_iff_mem, taken, if_false, Fallible.bind_eq_ok, pure, Except.pure,
      Except.ok.injEq, not_false_eq_true, true_and, @eq_comm _ schema]
    constructor
    · rintro ⟨parsed, type, compiled, rest, built, whole⟩
      exact ⟨type, rest, parsed, compiled, built, whole⟩
    · rintro ⟨type, rest, parsed, compiled, built, whole⟩
      exact ⟨parsed, type, compiled, rest, built, whole⟩

/-- Fields are compiled one by one, and their names differ from each other and from those seen. -/
theorem buildAfter_eq_ok {seen : List String} {fields : List (String × TypeSpec)}
    {schema : Schema} :
    buildAfter seen fields = .ok schema ↔
      List.Forall₂ (fun f g => FieldKey.parse f.1 = .ok g.1 ∧ f.2.compile = .ok g.2)
        fields schema ∧ schema.names.Nodup ∧ ∀ name ∈ schema.names, name ∉ seen := by
  induction fields generalizing seen schema with
  | nil =>
      simp only [buildAfter, Except.ok.injEq, List.forall₂_nil_left_iff]
      constructor
      · rintro rfl
        exact ⟨rfl, by simp [names], by simp [names]⟩
      · exact fun h => h.1.symm
  | cons f fields ih =>
      obtain ⟨descriptor, spec⟩ := f
      simp only [buildAfter_cons_eq_ok, ih, List.forall₂_cons_left_iff]
      constructor
      · rintro ⟨key, type, rest, parsed, fresh, compiled, ⟨each, nodup, apart⟩, rfl⟩
        refine ⟨⟨(key, type), rest, ⟨parsed, compiled⟩, each, rfl⟩, ?_, ?_⟩
        · exact List.nodup_cons.2 ⟨fun mem => apart _ mem (by simp), nodup⟩
        · refine List.forall_mem_cons.2 ⟨fresh, fun name mem seen => apart name mem ?_⟩
          exact List.mem_cons_of_mem _ seen
      · rintro ⟨⟨⟨key, type⟩, rest, ⟨parsed, compiled⟩, each, rfl⟩, nodup, apart⟩
        obtain ⟨first, nodup⟩ := List.nodup_cons.1 nodup
        obtain ⟨fresh, apart⟩ := List.forall_mem_cons.1 apart
        refine ⟨key, type, rest, parsed, fresh, compiled, ⟨each, nodup, ?_⟩, rfl⟩
        intro name mem seen
        obtain rfl | seen := List.mem_cons.1 seen
        · exact first mem
        · exact apart name mem seen

theorem fieldsOfJson_eq_mapM (registry : Registry) (members : List (String × Json)) :
    fieldsOfJson registry members = members.mapM fun m =>
      (typeOfJson registry m.1 m.2).map fun type => (m.1, .compiled type) := by
  induction members with
  | nil => rfl
  | cons m r ih =>
      rw [fieldsOfJson, ih, List.mapM_cons]
      cases typeOfJson registry m.1 m.2 <;> rfl

/-- What compiling makes of the members of an object: fields with distinct names, and with types
that are compiled from the members. -/
theorem fields_of_build {motive : FieldType → Prop} {registry : Registry}
    {members : List (String × Json)} {fields : List (String × TypeSpec)} {schema : Schema}
    (each : ∀ m ∈ members, ∀ type, typeOfJson registry m.1 m.2 = .ok type → motive type)
    (declared : fieldsOfJson registry members = .ok fields) (built : build fields = .ok schema) :
    schema.names.Nodup ∧ ∀ field ∈ schema, motive field.2 := by
  rw [fieldsOfJson_eq_mapM, Fallible.mapM_eq_ok] at declared
  obtain ⟨compiled, distinct, -⟩ := buildAfter_eq_ok.1 built
  have typed (f : String × TypeSpec) (mem : f ∈ fields) :
      ∃ type : FieldType, f.2 = .compiled type ∧ motive type := by
    obtain ⟨m, from_m, made⟩ := Fallible.forall₂_exists_left declared mem
    obtain ⟨type, typed, rfl⟩ := Fallible.map_eq_ok.1 made
    exact ⟨type, rfl, each m from_m type typed⟩
  refine ⟨distinct, fun g mem => ?_⟩
  obtain ⟨f, from_f, -, made⟩ := Fallible.forall₂_exists_left compiled mem
  obtain ⟨type, spec, holds⟩ := typed f from_f
  rw [spec, TypeSpec.compile, Except.ok.injEq] at made
  exact made ▸ holds

theorem typeOfJson_induction {motive : FieldType → Prop} {registry : Registry}
    (resolved : ∀ name type, registry.resolve name = .ok type → motive type)
    (nested : ∀ schema : Schema, schema.names.Nodup → (∀ field ∈ schema, motive field.2) →
      motive (.nested schema)) (j : Json) {descriptor : String} {type : FieldType}
    (typed : typeOfJson registry descriptor j = .ok type) : motive type := by
  induction j using Json.induction generalizing descriptor type with
  | string name => exact resolved name type typed
  | object members ih =>
      rw [typeOfJson, Fallible.bind_eq_ok] at typed
      obtain ⟨fields, declared, typed⟩ := typed
      obtain ⟨schema, built, made⟩ := Fallible.bind_eq_ok.1 typed
      cases made
      obtain ⟨distinct, each⟩ := fields_of_build (fun m mem type => ih m mem) declared built
      exact nested schema distinct each
  | null | bool | number | array => cases typed

theorem ofJson_induction {motive : FieldType → Prop} {registry : Registry}
    (resolved : ∀ name type, registry.resolve name = .ok type → motive type)
    (nested : ∀ schema : Schema, schema.names.Nodup → (∀ field ∈ schema, motive field.2) →
      motive (.nested schema)) {j : Json} {schema : Schema}
    (compiled : ofJson registry j = .ok schema) :
    schema.names.Nodup ∧ ∀ field ∈ schema, motive field.2 := by
  cases j with
  | object members =>
      rw [ofJson, Fallible.bind_eq_ok] at compiled
      obtain ⟨fields, declared, built⟩ := compiled
      exact fields_of_build (fun m _ _ => typeOfJson_induction resolved nested m.2) declared built
  | null | bool | number | string | array => cases compiled

theorem resolve_cases {registry : Registry} {name : String} {type : FieldType}
    (resolved : registry.resolve name = .ok type) :
    (∃ p, type = .primitive p) ∨ (∃ c ∈ registry.types, type = .custom c) ∨
      ∃ u, type = .union u := by
  unfold Registry.resolve at resolved
  split at resolved
  · cases resolved
    exact .inl ⟨_, rfl⟩
  · split at resolved
    · next c found =>
        cases resolved
        exact .inr (.inl ⟨c, List.mem_of_find?_eq_some found, rfl⟩)
    · obtain ⟨u, -, rfl⟩ := Fallible.map_eq_ok.1 resolved
      exact .inr (.inr ⟨u, rfl⟩)

/-- A schema read from JSON has no custom types but those of the registry. -/
theorem everyCustom_of_ofJson {p : CustomType → Prop} {registry : Registry}
    (registered : ∀ c ∈ registry.types, p c) {j : Json} {schema : Schema}
    (compiled : ofJson registry j = .ok schema) : schema.EveryCustom p := by
  have resolved (name : String) (type : FieldType) (h : registry.resolve name = .ok type) :
      type.EveryCustom p := by
    obtain ⟨x, rfl⟩ | ⟨c, mem, rfl⟩ | ⟨u, rfl⟩ := resolve_cases h
    · exact .primitive x
    · exact .custom (registered c mem)
    · exact .union u
  exact (ofJson_induction resolved (fun _ _ => .nested) compiled).2

/-- A schema read from JSON is well-formed. -/
theorem wellFormed_of_ofJson {registry : Registry} {j : Json} {schema : Schema}
    (compiled : ofJson registry j = .ok schema) : schema.WellFormed := by
  have resolved (name : String) (type : FieldType) (h : registry.resolve name = .ok type) :
      type.WellFormed := by
    obtain ⟨x, rfl⟩ | ⟨c, -, rfl⟩ | ⟨u, rfl⟩ := resolve_cases h
    · exact .primitive x
    · exact .custom c
    · exact .union u
  obtain ⟨distinct, fields⟩ := ofJson_induction resolved (fun _ => .nested) compiled
  exact ⟨distinct, fields⟩

end Schema

end RecordSchema
