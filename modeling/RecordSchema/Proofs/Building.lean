import RecordSchema.Proofs.Compilation
import RecordSchema.Proofs.Naming

namespace RecordSchema

namespace FieldKey

/-- The keys that descriptors mark all have names, and no two of them the same. -/
structure Listed (descriptors : List String) (keys : List FieldKey) : Prop where
  marks : List.Forall₂ Marks descriptors keys
  named : ∀ key ∈ keys, key.name ≠ ""
  distinct : (keys.map FieldKey.name).Nodup

/-- The first fault of descriptors that follow others whose names are taken. -/
inductive Fault : List String → List String → SchemaError → Prop
  | unnamed {taken r : List String} {descriptor : String} {key : FieldKey}
      (marks : Marks descriptor key) (unnamed : key.name = "") :
      Fault taken (descriptor :: r) .emptyFieldName
  | duplicate {taken r : List String} {descriptor : String} {key : FieldKey}
      (marks : Marks descriptor key) (named : key.name ≠ "") (mem : key.name ∈ taken) :
      Fault taken (descriptor :: r) (.duplicateField key.name)
  | later {taken r : List String} {descriptor : String} {key : FieldKey} {e : SchemaError}
      (marks : Marks descriptor key) (named : key.name ≠ "") (fresh : key.name ∉ taken)
      (rest : Fault (key.name :: taken) r e) : Fault taken (descriptor :: r) e

end FieldKey

namespace Schema

section Building

variable {seen : List String} {descriptor : String} {spec : TypeSpec} {key : FieldKey}
  {r : List (String × TypeSpec)}

theorem buildAfter_of_unnamed {e : SchemaError} (parsed : FieldKey.parse descriptor = .error e) :
    buildAfter seen ((descriptor, spec) :: r) = .error e := by
  rw [buildAfter, parsed]
  rfl

theorem buildAfter_of_taken (parsed : FieldKey.parse descriptor = .ok key) (mem : key.name ∈ seen) :
    buildAfter seen ((descriptor, spec) :: r) = .error (.duplicateField key.name) := by
  have taken : seen.contains key.name = true := List.contains_iff_mem.2 mem
  rw [buildAfter, parsed]
  simp only [bind, Except.bind, taken, if_true]
  rfl

theorem buildAfter_of_fresh {type : FieldType} (parsed : FieldKey.parse descriptor = .ok key)
    (fresh : key.name ∉ seen) (compiled : spec.compile = .ok type) :
    buildAfter seen ((descriptor, spec) :: r) =
      (buildAfter (key.name :: seen) r).map fun rest => (key, type) :: rest := by
  have free : ¬ seen.contains key.name = true := mt List.contains_iff_mem.1 fresh
  rw [buildAfter, parsed]
  simp only [bind, Except.bind, if_neg free, compiled]
  cases buildAfter (key.name :: seen) r <;> rfl

end Building

/-- Where all types are compiled, fields fail to build by the first fault of their keys. -/
theorem buildAfter_eq_error_iff {seen : List String} {fields : List (String × TypeSpec)}
    {e : SchemaError} (compiled : ∀ f ∈ fields, ∃ type, f.2.compile = .ok type) :
    buildAfter seen fields = .error e ↔ FieldKey.Fault seen (Members.names fields) e := by
  -- With each key that passes, the names seen grow as the taken names of the fault do.
  induction fields generalizing seen with
  | nil =>
      constructor
      · intro h
        cases h
      · intro h
        cases h
  | cons f r ih =>
      obtain ⟨descriptor, spec⟩ := f
      obtain ⟨⟨type, made⟩, compiled⟩ := List.forall_mem_cons.1 compiled
      constructor
      · intro h
        cases parsed : FieldKey.parse descriptor with
        | error d =>
            rw [buildAfter_of_unnamed parsed] at h
            cases h
            obtain ⟨⟨key, marks, unnamed⟩, rfl⟩ :=
              (FieldKey.parse_eq_error_iff descriptor e).1 parsed
            exact .unnamed marks unnamed
        | ok key =>
            obtain ⟨marks, named⟩ := (FieldKey.parse_eq_ok_iff descriptor key).1 parsed
            by_cases mem : key.name ∈ seen
            · rw [buildAfter_of_taken parsed mem] at h
              cases h
              exact .duplicate marks named mem
            · rw [buildAfter_of_fresh parsed mem made, Fallible.map_eq_error, ih compiled] at h
              exact .later marks named mem h
      · intro h
        cases h with
        | unnamed marks unnamed =>
            exact buildAfter_of_unnamed
              ((FieldKey.parse_eq_error_iff _ _).2 ⟨⟨_, marks, unnamed⟩, rfl⟩)
        | duplicate marks named mem =>
            exact buildAfter_of_taken ((FieldKey.parse_eq_ok_iff _ _).2 ⟨marks, named⟩) mem
        | later marks named fresh rest =>
            have parsed := (FieldKey.parse_eq_ok_iff _ _).2 ⟨marks, named⟩
            rw [buildAfter_of_fresh parsed fresh made, Fallible.map_eq_error, ih compiled]
            exact rest

variable {registry : Registry}

theorem fieldsOfJson_eq_ok_iff {members : List (String × Json)}
    {fields : List (String × TypeSpec)} :
    fieldsOfJson registry members = .ok fields ↔
      List.Forall₂ (fun m f => ∃ type, typeOfJson registry m.1 m.2 = .ok type ∧
        (m.1, .compiled type) = f) members fields := by
  simp only [fieldsOfJson_eq_mapM, Fallible.mapM_eq_ok, Fallible.map_eq_ok]

theorem exists_fieldsOfJson_iff (members : List (String × Json)) :
    (∃ fields, fieldsOfJson registry members = .ok fields) ↔
      ∀ m ∈ members, ∃ type, typeOfJson registry m.1 m.2 = .ok type := by
  simp only [fieldsOfJson_eq_ok_iff]
  constructor
  · rintro ⟨fields, each⟩ m mem
    obtain ⟨f, -, type, typed, -⟩ := Fallible.forall₂_exists_left each.flip mem
    exact ⟨type, typed⟩
  · intro each
    refine Fallible.exists_forall₂ fun m mem => ?_
    obtain ⟨type, typed⟩ := each m mem
    exact ⟨_, type, typed, rfl⟩

theorem fieldsOfJson_compiled {members : List (String × Json)} {fields : List (String × TypeSpec)}
    (declared : fieldsOfJson registry members = .ok fields) :
    Members.names fields = Members.names members ∧
      ∀ f ∈ fields, ∃ type, f.2.compile = .ok type := by
  rw [fieldsOfJson_eq_ok_iff] at declared
  induction declared with
  | nil => exact ⟨rfl, by simp⟩
  | cons related _ ih =>
      obtain ⟨type, -, rfl⟩ := related
      obtain ⟨names, compiled⟩ := ih
      exact ⟨congrArg _ names, List.forall_mem_cons.2 ⟨⟨type, rfl⟩, compiled⟩⟩

structure FieldOf (registry : Registry) (m : String × Json) (f : Field) : Prop where
  marks : FieldKey.Marks m.1 f.1
  named : f.1.name ≠ ""
  typed : typeOfJson registry m.1 m.2 = .ok f.2

theorem fieldOf_iff (m : String × Json) (g : Field) :
    (∃ f : String × TypeSpec, (∃ type, typeOfJson registry m.1 m.2 = .ok type ∧
        (m.1, .compiled type) = f) ∧ FieldKey.parse f.1 = .ok g.1 ∧ f.2.compile = .ok g.2) ↔
      FieldOf registry m g := by
  constructor
  · rintro ⟨_, ⟨type, typed, rfl⟩, parsed, made⟩
    cases made
    obtain ⟨marks, named⟩ := (FieldKey.parse_eq_ok_iff _ _).1 parsed
    exact ⟨marks, named, typed⟩
  · rintro ⟨marks, named, typed⟩
    exact ⟨_, ⟨g.2, typed, rfl⟩, (FieldKey.parse_eq_ok_iff _ _).2 ⟨marks, named⟩, rfl⟩

theorem ofJson_object_eq_ok_iff {members : List (String × Json)} {schema : Schema} :
    ofJson registry (.object members) = .ok schema ↔
      List.Forall₂ (FieldOf registry) members schema ∧ schema.names.Nodup := by
  have declared : (∃ fields, fieldsOfJson registry members = .ok fields ∧
      List.Forall₂ (fun f g => FieldKey.parse f.1 = .ok g.1 ∧ f.2.compile = .ok g.2)
        fields schema) ↔
      List.Forall₂ (FieldOf registry) members schema := by
    simp only [fieldsOfJson_eq_ok_iff, Fallible.exists_forall₂_comp_iff, fieldOf_iff]
  rw [ofJson, Fallible.bind_eq_ok, ← declared]
  simp only [build, buildAfter_eq_ok, List.not_mem_nil, not_false_eq_true, implies_true, and_true]
  constructor
  · rintro ⟨fields, each, made, distinct⟩
    exact ⟨⟨fields, each, made⟩, distinct⟩
  · rintro ⟨⟨fields, each, made⟩, distinct⟩
    exact ⟨fields, each, made, distinct⟩

theorem exists_ofJson_object_iff (members : List (String × Json)) :
    (∃ schema, ofJson registry (.object members) = .ok schema) ↔
      (∀ m ∈ members, ∃ type, typeOfJson registry m.1 m.2 = .ok type) ∧
        ∃ keys, FieldKey.Listed (Members.names members) keys := by
  simp only [ofJson_object_eq_ok_iff]
  constructor
  · rintro ⟨schema, each, distinct⟩
    refine ⟨fun m mem => ?_, schema.map Prod.fst, ?_, ?_, ?_⟩
    · obtain ⟨f, -, fieldOf⟩ := Fallible.forall₂_exists_left each.flip mem
      exact ⟨f.2, fieldOf.typed⟩
    · rw [Members.names, List.forall₂_map_left_iff, List.forall₂_map_right_iff]
      exact each.imp fun m f fieldOf => fieldOf.marks
    · intro key mem
      obtain ⟨f, from_f, rfl⟩ := List.mem_map.1 mem
      obtain ⟨m, -, fieldOf⟩ := Fallible.forall₂_exists_left each from_f
      exact fieldOf.named
    · rw [List.map_map]
      exact distinct
  · rintro ⟨types, keys, marks, named, distinct⟩
    rw [Members.names, List.forall₂_map_left_iff] at marks
    obtain ⟨schema, rfl, each⟩ := Fallible.exists_forall₂_pair marks types
    rw [List.map_map] at distinct
    have fieldNamed : ∀ f ∈ schema, f.1.name ≠ "" :=
      fun f mem => named f.1 (List.mem_map.2 ⟨f, mem, rfl⟩)
    have both := (List.forall₂_and_left schema members).2 ⟨fieldNamed, each.flip⟩
    refine ⟨schema, both.flip.imp fun m f h => ?_, distinct⟩
    obtain ⟨named, marks, typed⟩ := h
    exact ⟨marks, named, typed⟩

theorem ofJson_object_eq_error_iff {members : List (String × Json)} {e : SchemaError} :
    ofJson registry (.object members) = .error e ↔
      (∃ before m after, members = before ++ m :: after ∧
        (∀ x ∈ before, ∃ type, typeOfJson registry x.1 x.2 = .ok type) ∧
        typeOfJson registry m.1 m.2 = .error e) ∨
      (∀ m ∈ members, ∃ type, typeOfJson registry m.1 m.2 = .ok type) ∧
        FieldKey.Fault [] (Members.names members) e := by
  rw [ofJson, Fallible.bind_eq_error]
  refine or_congr ?_ ?_
  · rw [fieldsOfJson_eq_mapM, Fallible.mapM_eq_error]
    simp only [Fallible.map_eq_error, Fallible.exists_map_eq_ok]
  · rw [← exists_fieldsOfJson_iff, ← exists_and_right]
    refine exists_congr fun fields => and_congr_right fun declared => ?_
    obtain ⟨names, compiled⟩ := fieldsOfJson_compiled declared
    rw [build, buildAfter_eq_error_iff compiled, names]

theorem typeOfJson_object (descriptor : String) (members : List (String × Json)) :
    typeOfJson registry descriptor (.object members) =
      (ofJson registry (.object members)).map .nested := by
  rw [typeOfJson, ofJson]
  cases fieldsOfJson registry members with
  | error e => rfl
  | ok fields => rfl

theorem typeOfJson_of_other {j : Json} (noText : ∀ text, j ≠ .string text)
    (noObject : ∀ members, j ≠ .object members) (descriptor : String) :
    typeOfJson registry descriptor j = .error (.invalidDescriptor descriptor j) := by
  cases j with
  | string text => exact absurd rfl (noText text)
  | object members => exact absurd rfl (noObject members)
  | null | bool | number | array => rfl

theorem ofJson_of_not_object {j : Json} (h : ∀ members, j ≠ .object members) :
    ofJson registry j = .error .notAnObject := by
  cases j with
  | object members => exact absurd rfl (h members)
  | null | bool | number | string | array => rfl

end Schema

end RecordSchema
