import RecordSchema.Proofs.Refusals

namespace RecordSchema

mutual

/-- What may become of a value. Only a type that is no schema converts a value as a whole. -/
inductive FieldType.Coerced : FieldType → Value → Value → Prop
  | absent {type : FieldType} {v : Value} (h : v.isNullish = true) : FieldType.Coerced type v v
  | converted {type : FieldType} {v w : Value} (direct : ∀ schema, type ≠ .nested schema)
      (present : v.isNullish = false) (made : type.convert v = .ok w) : FieldType.Coerced type v w
  | mapping {schema : Schema} {members made : Record}
      (h : Schema.CoercedMembers schema members made) :
      FieldType.Coerced (.nested schema) (.mapping members) (.mapping made)
  | sequence {schema : Schema} {items made : List Value}
      (h : Schema.CoercedItems schema items made) :
      FieldType.Coerced (.nested schema) (.sequence items) (.sequence made)
  | other {schema : Schema} {v : Value} (h : v.isContainer = false) :
      FieldType.Coerced (.nested schema) v v

/-- Members keep their names and places, and those that the schema does not declare their values. -/
inductive Schema.CoercedMembers : Schema → Record → Record → Prop
  | nil (schema : Schema) : Schema.CoercedMembers schema [] []
  | declared {schema : Schema} {field : Field} {k : String} {v w : Value} {members made : Record}
      (mem : field ∈ schema) (named : field.1.name = k) (h : FieldType.Coerced field.2 v w)
      (rest : Schema.CoercedMembers schema members made) :
      Schema.CoercedMembers schema ((k, v) :: members) ((k, w) :: made)
  | undeclared {schema : Schema} {k : String} {v : Value} {members made : Record}
      (h : k ∉ schema.names) (rest : Schema.CoercedMembers schema members made) :
      Schema.CoercedMembers schema ((k, v) :: members) ((k, v) :: made)

inductive Schema.CoercedItems : Schema → List Value → List Value → Prop
  | nil (schema : Schema) : Schema.CoercedItems schema [] []
  | mapping {schema : Schema} {members coerced : Record} {items made : List Value}
      (h : Schema.CoercedMembers schema members coerced)
      (rest : Schema.CoercedItems schema items made) :
      Schema.CoercedItems schema (.mapping members :: items) (.mapping coerced :: made)
  | other {schema : Schema} {v : Value} {items made : List Value}
      (h : ∀ members, v ≠ .mapping members) (rest : Schema.CoercedItems schema items made) :
      Schema.CoercedItems schema (v :: items) (v :: made)

end

namespace Schema

variable {schema : Schema}

theorem field?_eq_none_iff (name : String) : schema.field? name = none ↔ name ∉ schema.names := by
  simp only [field?, names, List.find?_eq_none, beq_iff_eq, List.mem_map, not_exists, not_and]

theorem CoercedMembers.names_eq {members made : Record} (h : schema.CoercedMembers members made) :
    Members.names made = Members.names members := by
  induction members generalizing made with
  | nil =>
      cases h
      rfl
  | cons m r ih =>
      cases h with
      | declared _ _ _ rest | undeclared _ rest => exact congrArg (_ :: ·) (ih rest)

variable (distinct : schema.names.Nodup)
  (each : ∀ field ∈ schema, ∀ v w : Value, field.2.coerce v = .ok w ↔ field.2.Coerced v w)

include distinct each

theorem coerceMembers_eq_ok_iff (members made : Record) :
    FieldType.coerceMembers schema members = .ok made ↔ schema.CoercedMembers members made := by
  induction members generalizing made with
  | nil =>
      constructor
      · intro h
        cases h
        exact .nil schema
      · intro h
        cases h
        rfl
  | cons m r ih =>
      obtain ⟨k, v⟩ := m
      -- Coercion searches for the field and the relation has it listed: names decide that they agree.
      cases found : schema.field? k with
      | some field =>
          rw [FieldType.coerceMembers_of_declared found]
          constructor
          · intro h
            obtain ⟨w, first, h⟩ := Fallible.bind_eq_ok.1 h
            obtain ⟨rest, coerced, rfl⟩ := Fallible.map_eq_ok.1 h
            have first := (each field (mem_of_field? found) v w).1 first
            exact .declared (mem_of_field? found) (name_of_field? found) first ((ih rest).1 coerced)
          · intro h
            cases h with
            | declared mem named first rest =>
                rw [← named, field?_of_mem distinct mem] at found
                obtain rfl := Option.some.inj found
                rw [(each _ mem v _).2 first, (ih _).2 rest]
                rfl
            | undeclared absent =>
                rw [(field?_eq_none_iff k).2 absent] at found
                cases found
      | none =>
          rw [FieldType.coerceMembers_of_undeclared found, Fallible.map_eq_ok]
          constructor
          · rintro ⟨rest, coerced, rfl⟩
            exact .undeclared ((field?_eq_none_iff k).1 found) ((ih rest).1 coerced)
          · intro h
            cases h with
            | declared mem named =>
                rw [← named, field?_of_mem distinct mem] at found
                cases found
            | undeclared _ rest => exact ⟨_, (ih _).2 rest, rfl⟩

theorem coerce_mapping_iff_coerced (members : Record) (w : Value) :
    schema.coerce (.mapping members) = .ok w ↔
      ∃ made, w = .mapping made ∧ schema.CoercedMembers members made := by
  have made : schema.coerce (.mapping members) =
      (FieldType.coerceMembers schema members).map Value.mapping := rfl
  simp only [made, Fallible.map_eq_ok, coerceMembers_eq_ok_iff distinct each, and_comm,
    @eq_comm _ w]

theorem mapM_coerce_eq_ok_iff (items made : List Value) :
    items.mapM schema.coerce = .ok made ↔ schema.CoercedItems items made := by
  rw [Fallible.mapM_eq_ok]
  induction items generalizing made with
  | nil =>
      rw [List.forall₂_nil_left_iff]
      constructor
      · rintro rfl
        exact .nil schema
      · intro h
        cases h
        rfl
  | cons v r ih =>
      constructor
      · rintro (_ | ⟨first, rest⟩)
        by_cases record : ∃ members, v = .mapping members
        · obtain ⟨members, rfl⟩ := record
          obtain ⟨coerced, rfl, h⟩ := (coerce_mapping_iff_coerced distinct each members _).1 first
          exact .mapping h ((ih _).1 rest)
        · rw [coerce_of_not_mapping schema (not_exists.1 record)] at first
          obtain rfl := Except.ok.inj first
          exact .other (not_exists.1 record) ((ih _).1 rest)
      · intro h
        cases h with
        | mapping h rest =>
            have first := (coerce_mapping_iff_coerced distinct each _ _).2 ⟨_, rfl, h⟩
            exact .cons first ((ih _).2 rest)
        | other h rest => exact .cons (coerce_of_not_mapping schema h) ((ih _).2 rest)

end Schema

theorem FieldType.coerce_direct_iff {type : FieldType} (direct : ∀ schema, type ≠ .nested schema)
    (v w : Value) : type.coerce v = .ok w ↔ type.Coerced v w := by
  rw [coerce_of_not_nested direct]
  constructor
  · intro h
    split at h
    · next nullish =>
        obtain rfl := Except.ok.inj h
        exact .absent nullish
    · next present => exact .converted direct (Bool.eq_false_iff.2 present) h
  · intro h
    cases h with
    | absent nullish => rw [if_pos nullish]
    | converted _ present made => rwa [present, if_neg Bool.false_ne_true]
    | mapping | sequence | other => exact absurd rfl (direct _)

theorem FieldType.coerced_mapping_iff (schema : Schema) (members : Record) (w : Value) :
    Coerced (.nested schema) (.mapping members) w ↔
      ∃ made, w = .mapping made ∧ schema.CoercedMembers members made := by
  constructor
  · intro h
    cases h with
    | mapping h => exact ⟨_, rfl, h⟩
    | converted direct => exact absurd rfl (direct schema)
    | absent nullish => cases nullish
    | other leaf => cases leaf
  · rintro ⟨made, rfl, h⟩
    exact .mapping h

theorem FieldType.coerced_sequence_iff (schema : Schema) (items : List Value) (w : Value) :
    Coerced (.nested schema) (.sequence items) w ↔
      ∃ made, schema.CoercedItems items made ∧ .sequence made = w := by
  constructor
  · intro h
    cases h with
    | sequence h => exact ⟨_, h, rfl⟩
    | converted direct => exact absurd rfl (direct schema)
    | absent nullish => cases nullish
    | other leaf => cases leaf
  · rintro ⟨made, h, rfl⟩
    exact .sequence h

theorem FieldType.coerced_leaf_iff (schema : Schema) {v : Value} (leaf : v.isContainer = false)
    (w : Value) : Coerced (.nested schema) v w ↔ w = v := by
  constructor
  · intro h
    cases h with
    | absent | other => rfl
    | converted direct => exact absurd rfl (direct schema)
    | mapping | sequence => cases leaf
  · rintro rfl
    exact .other leaf

/-- Coercion to a type succeeds with what may become of the value. -/
theorem FieldType.coerce_eq_ok_iff {type : FieldType} (wellFormed : type.WellFormed) (v w : Value) :
    type.coerce v = .ok w ↔ type.Coerced v w := by
  induction type using FieldType.induction generalizing v w with
  | primitive | union | custom => exact coerce_direct_iff (by simp) v w
  | nested schema ih =>
      cases wellFormed with
      | nested distinct fields =>
          have each := fun field mem => ih field mem (fields field mem)
          cases v with
          | mapping members =>
              rw [coerce_nested_of_not_sequence schema (by simp), coerced_mapping_iff]
              exact Schema.coerce_mapping_iff_coerced distinct each members w
          | sequence items =>
              rw [coerce_nested_sequence, coerced_sequence_iff, Fallible.map_eq_ok]
              simp only [Schema.mapM_coerce_eq_ok_iff distinct each]
          | _ =>
              rw [coerce_nested_of_not_sequence schema (by simp),
                Schema.coerce_of_not_mapping schema (by simp), Except.ok.injEq,
                coerced_leaf_iff schema rfl, eq_comm]

/-- Coercion of a mapping fails exactly if a custom type refuses a value, neither null nor missing,
that it governs, and then with the first refusal in the order of the record. Otherwise it keeps the
names, and makes of each member what may become of it. -/
theorem coercion_confined_to_fields {schema : Schema} (wellFormed : schema.WellFormed)
    {members : Record} (distinct : (Value.mapping members).WellFormed) :
    ((∃ e, schema.coerce (.mapping members) = .error e) ↔
      ∃ path c v, schema.Governs (.mapping members) path c v ∧ v.isNullish = false ∧
        ∃ e, c.construct v = .error e) ∧
    (∀ e, schema.coerce (.mapping members) = .error e ↔
      ∃ path, (Value.mapping members).FirstOf (schema.Refuses (.mapping members)) path e) ∧
    ∀ w, schema.coerce (.mapping members) = .ok w ↔
      ∃ made, w = .mapping made ∧ Members.names made = Members.names members ∧
        schema.CoercedMembers members made := by
  have reports := Schema.reports_coerce_of_fields wellFormed.distinct
    (fun field mem => FieldType.reports_coerce (wellFormed.fields field mem)) (.mapping members)
  refine ⟨?_, reports.eq_error_iff distinct, fun w => ?_⟩
  · rw [reports.exists_error_iff]
    constructor
    · rintro ⟨path, e, c, v, governs, present, refused⟩
      exact ⟨path, c, v, governs, present, e, refused⟩
    · rintro ⟨path, c, v, governs, present, e, refused⟩
      exact ⟨path, e, c, v, governs, present, refused⟩
  · rw [Schema.coerce_mapping_iff_coerced wellFormed.distinct
      fun field mem => FieldType.coerce_eq_ok_iff (wellFormed.fields field mem)]
    constructor
    · rintro ⟨made, rfl, h⟩
      exact ⟨made, rfl, h.names_eq, h⟩
    · rintro ⟨made, rfl, -, h⟩
      exact ⟨made, rfl, h⟩

def inventory : Schema :=
  [(⟨"floors", .required⟩, .custom IntegerNumber.type),
    (⟨"rooms", .trailing⟩, .nested [(⟨"beds", .required⟩, .custom IntegerNumber.type),
      (⟨"free", .required⟩, .primitive .boolean)])]

def inventoried (beds floors : Value) : Record :=
  [("beds", .string "many"),
    ("rooms", .sequence [.string "attic", .mapping [("free", .string "yes"), ("beds", beds)]]),
    ("floors", floors)]

theorem inventory_reports_beds :
    inventory.WellFormed ∧
    (Value.mapping (inventoried (.string "two") (.string "one"))).WellFormed ∧
    (Value.mapping (inventoried .null .null)).WellFormed ∧
    (∃ path c v,
      inventory.Governs (.mapping (inventoried (.string "two") (.string "one"))) path c v ∧
      v.isNullish = false ∧ ∃ e, c.construct v = .error e) ∧
    (∃ path, (Value.mapping (inventoried (.string "two") (.string "one"))).FirstOf
      (inventory.Refuses (.mapping (inventoried (.string "two") (.string "one")))) path
      (IntegerNumber.refusal "two")) ∧
    ∃ made, inventory.coerce (.mapping (inventoried .null .null)) = .ok (.mapping made) ∧
      Members.names made = ["beds", "rooms", "floors"] ∧
      inventory.CoercedMembers (inventoried .null .null) made := by
  have wellFormed : inventory.WellFormed := by
    refine ⟨by decide, List.forall_mem_cons.2 ⟨.custom _, List.forall_mem_singleton.2 ?_⟩⟩
    refine .nested (by decide) (List.forall_mem_cons.2 ⟨.custom _, ?_⟩)
    exact List.forall_mem_singleton.2 (.primitive .boolean)
  have distinct (beds floors : Value) (h : beds.WellFormed) (h' : floors.WellFormed) :
      (Value.mapping (inventoried beds floors)).WellFormed := by
    simp [inventoried, Value.WellFormed, Value.WellFormedMembers, Value.WellFormedItems,
      Members.names, h, h']
  have refused := distinct (.string "two") (.string "one") trivial trivial
  have kept := distinct .null .null trivial trivial
  have two : inventory.coerce (.mapping (inventoried (.string "two") (.string "one"))) =
      .error (IntegerNumber.refusal "two") := rfl
  have whole : ∃ w, inventory.coerce (.mapping (inventoried .null .null)) = .ok w := ⟨_, rfl⟩
  obtain ⟨fails, reported, -⟩ := coercion_confined_to_fields wellFormed refused
  obtain ⟨w, whole⟩ := whole
  obtain ⟨-, -, made⟩ := coercion_confined_to_fields wellFormed kept
  obtain ⟨coerced, rfl, names, each⟩ := (made w).1 whole
  exact ⟨wellFormed, refused, kept, fails.1 ⟨_, two⟩, (reported _).1 two, coerced, whole, names, each⟩

end RecordSchema
