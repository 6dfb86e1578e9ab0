import RecordSchema.Proofs.EqualRecords
import RecordSchema.Proofs.FixedPoint
import RecordSchema.Proofs.Refusals

namespace RecordSchema

section Governed

variable {v w : Value} {path : List String} {c : CustomType}

theorem FieldType.Governs.of_everyCustom {p : CustomType → Prop} {type : FieldType}
    (every : type.EveryCustom p) (h : type.Governs v path c w) : p c := by
  induction every generalizing v path with
  | primitive | union => cases h
  | custom holds =>
      cases h
      exact holds
  | @nested schema _ ih =>
      have fields {record : Value} {path : List String} (h : schema.Governs record path c w) :
          p c := by
        cases h with
        | member _ declared _ h => exact ih _ declared h
      cases h with
      | mapping h => exact fields h
      | item _ h => exact fields h

theorem Schema.Governs.of_everyCustom {p : CustomType → Prop} {schema : Schema}
    (every : schema.EveryCustom p) (h : schema.Governs v path c w) : p c := by
  cases h with
  | member _ declared _ h => exact h.of_everyCustom (every _ declared)

def FieldType.AcceptsGoverned (type : FieldType) (c : CustomType) (w : Value) : Prop :=
  ∀ (v : Value) (path : List String), type.Governs v path c w → v.WellFormed →
    v.isNullish = true ∨ type.Admits v → c.accepts w = true

theorem Schema.Governs.accepts_of_fields {schema : Schema}
    (each : ∀ field ∈ schema, field.2.AcceptsGoverned c w) (h : schema.Governs v path c w)
    (distinct : v.WellFormed) (conforms : schema.Conforms v) : c.accepts w = true := by
  cases h with
  | @member _ members m field _ _ _ mem declared named h =>
      have listed : m ∈ (Value.mapping members).entries := mem
      have content := (Schema.conforms_iff_content _ _).1 conforms field declared
      rw [named, Value.member_of_mem_entries distinct listed, Field.content_iff] at content
      refine each field declared _ _ h (distinct.of_mem_entries listed) (content.imp_left ?_)
      intro excused
      exact (Bool.and_eq_true_iff.1 excused).2

theorem FieldType.acceptsGoverned (type : FieldType) (present : w.isNullish = false) :
    type.AcceptsGoverned c w := by
  -- The path takes no part: what a nested schema governs, one of its fields governs already.
  induction type using FieldType.induction with
  | primitive | union =>
      intro v path h
      cases h
  | custom d =>
      rintro v path ⟨⟩ - (nullish | admits)
      · rw [present] at nullish
        cases nullish
      · cases admits with
        | custom accepted => exact accepted
  | nested schema ih =>
      rintro v path h distinct (nullish | admits)
      · cases h <;> cases nullish
      · cases h with
        | mapping h => exact h.accepts_of_fields ih distinct ((admits_mapping_iff _ _).1 admits)
        | @item _ items m path _ _ mem h =>
            obtain ⟨i, at_i, -⟩ := Value.mem_entriesFrom.1 mem
            have item := (admits_sequence_iff _ _).1 admits m.2 (List.mem_of_getElem? at_i)
            exact h.accepts_of_fields ih (distinct.of_mem_entries mem) item.2

theorem Schema.Governs.accepts {schema : Schema} (h : schema.Governs v path c w)
    (distinct : v.WellFormed) (conforms : schema.Conforms v) (present : w.isNullish = false) :
    c.accepts w = true :=
  h.accepts_of_fields (fun field _ => field.2.acceptsGoverned present) distinct conforms

end Governed

namespace IntegerNumber

/-- The value is an integer, or an instance of the type around one. -/
inductive StandsFor (n : Number) : Value → Prop
  | number (h : n.isInteger = true) : StandsFor n (.number n)
  | custom {v : Value} (h : StandsFor n v) : StandsFor n (.custom typeName v)

/-- An instance of the type that stands for no integer. -/
def Hollow (v : Value) : Prop :=
  v.isInstanceOf typeName = true ∧ ∀ n, ¬ StandsFor n v

theorem ofValue_eq_ok_iff (v : Value) (i : IntegerNumber) :
    ofValue v = .ok i ↔ StandsFor i.number v := by
  induction v using Value.induction with
  | number n =>
      rw [ofValue, ofNumber_eq_ok_iff]
      constructor
      · rintro rfl
        exact .number i.isInteger
      · intro h
        cases h
        rfl
  | custom name v ih =>
      rw [ofValue]
      split
      · next named =>
          subst named
          rw [ih]
          constructor
          · exact .custom
          · intro h
            cases h with
            | custom h => exact h
      · next other =>
          refine iff_of_false (by simp) ?_
          intro h
          cases h
          exact other rfl
  | undefined | null | bool | string | sequence | mapping | function =>
      exact iff_of_false (by simp [ofValue]) (fun h => by cases h)

theorem StandsFor.isInteger {n : Number} {v : Value} (h : StandsFor n v) : n.isInteger = true := by
  induction h with
  | number h => exact h
  | custom _ ih => exact ih

theorem construct_eq_ok_iff (v : Value) (i : Instance) :
    type.construct v = .ok i ↔ ∃ n, StandsFor n v ∧ i = ⟨typeName, .number n⟩ := by
  simp only [type, Fallible.map_eq_ok, ofValue_eq_ok_iff]
  constructor
  · rintro ⟨n, h, rfl⟩
    exact ⟨n.number, h, rfl⟩
  · rintro ⟨n, h, rfl⟩
    exact ⟨⟨n, h.isInteger⟩, h, rfl⟩

theorem exists_construct_error_iff (v : Value) :
    (∃ e, type.construct v = .error e) ↔ ∀ n, ¬ StandsFor n v := by
  cases made : type.construct v with
  | ok i =>
      obtain ⟨n, h, -⟩ := (construct_eq_ok_iff v i).1 made
      exact iff_of_false (by simp) fun none => none n h
  | error e =>
      refine iff_of_true ⟨e, rfl⟩ fun n h => ?_
      rw [(construct_eq_ok_iff v _).2 ⟨n, h, rfl⟩] at made
      cases made

theorem accepts_iff (v : Value) :
    type.accepts v = true ↔ (∃ n, StandsFor n v) ∨ Hollow v := by
  by_cases whole : ∃ n, StandsFor n v
  · refine iff_of_true ?_ (.inl whole)
    obtain ⟨n, h⟩ := whole
    cases h with
    | number h => exact h
    | custom => exact beq_self_eq_true typeName
  · have none : ∀ n, ¬ StandsFor n v := not_exists.1 whole
    rw [or_iff_right whole, Hollow, and_iff_left none]
    cases v with
    | number n =>
        refine iff_of_false (fun integer => none n (.number integer)) ?_
        simp [Value.isInstanceOf]
    | _ => exact .rfl

theorem constructible_iff_accepted (v : Value) :
    (∃ i, type.construct v = .ok i) ↔ type.accepts v = true ∧ ¬ Hollow v := by
  rw [accepts_iff]
  constructor
  · rintro ⟨i, made⟩
    obtain ⟨n, h, -⟩ := (construct_eq_ok_iff v i).1 made
    exact ⟨.inl ⟨n, h⟩, fun hollow => hollow.2 n h⟩
  · rintro ⟨⟨n, h⟩ | hollow, whole⟩
    · exact ⟨_, (construct_eq_ok_iff v _).2 ⟨n, h, rfl⟩⟩
    · exact absurd hollow whole

/-- What was constructed is accepted, as an instance and as a number, and constructed again. -/
theorem constructed_again {v : Value} {i : Instance} (made : type.construct v = .ok i) :
    (∃ n : Number, i.primitive = .number n ∧ n.isFinite = true ∧ n.isInteger = true) ∧
    (type.accepts i.toValue = true ∧ type.accepts i.primitive = true) ∧
    type.construct i.toValue = .ok i ∧ type.construct i.primitive = .ok i := by
  obtain ⟨n, h, rfl⟩ := (construct_eq_ok_iff v i).1 made
  have integer : n.isInteger = true := h.isInteger
  have number := construct_number integer
  refine ⟨⟨n, rfl, Number.isFinite_of_isInteger integer, integer⟩, ⟨?_, integer⟩, ?_, number⟩
  · exact beq_self_eq_true typeName
  · rw [Instance.toValue, construct_instance, number]

theorem refused_iff_hollow {v : Value} (accepted : v.isNullish = false → type.accepts v = true) :
    (v.isNullish = false ∧ ∃ e, type.construct v = .error e) ↔ Hollow v := by
  rw [exists_construct_error_iff]
  constructor
  · rintro ⟨present, none⟩
    exact ((accepts_iff v).1 (accepted present)).resolve_left (not_exists.2 none)
  · intro hollow
    refine ⟨?_, hollow.2⟩
    cases v with
    | undefined | null => cases hollow.1
    | _ => rfl

/-- A record that conforms is refused exactly if a hollow instance stands where an integer does. -/
theorem exists_coerce_error_iff {schema : Schema} {record : Value} (wellFormed : schema.WellFormed)
    (onlyInt : schema.EveryCustom (· = type)) (distinct : record.WellFormed)
    (conforms : schema.Conforms record) :
    (∃ e, schema.coerce record = .error e) ↔
      ∃ path v, schema.Governs record path type v ∧ Hollow v := by
  have reports := Schema.reports_coerce_of_fields wellFormed.distinct
    (fun field mem => FieldType.reports_coerce (wellFormed.fields field mem)) record
  rw [reports.exists_error_iff]
  constructor
  · rintro ⟨path, e, c, v, governs, present, refused⟩
    have same := governs.of_everyCustom onlyInt
    subst same
    have accepted := governs.accepts distinct conforms
    exact ⟨path, v, governs, (refused_iff_hollow accepted).1 ⟨present, e, refused⟩⟩
  · rintro ⟨path, v, governs, hollow⟩
    have accepted := governs.accepts distinct conforms
    obtain ⟨present, e, refused⟩ := (refused_iff_hollow accepted).2 hollow
    exact ⟨path, e, type, v, governs, present, refused⟩

/-- Construction succeeds on what is accepted, hollow instances apart, and what it makes is accepted
and constructed again. Parsing a record that was created fails to construct only for these. -/
theorem construction_follows_acceptance :
    (∀ v, (∃ i, type.construct v = .ok i) ↔ type.accepts v = true ∧ ¬ Hollow v) ∧
    (∀ v i, type.construct v = .ok i →
      (∃ n : Number, i.primitive = .number n ∧ n.isFinite = true ∧ n.isInteger = true) ∧
      (type.accepts i.toValue = true ∧ type.accepts i.primitive = true) ∧
      type.construct i.toValue = .ok i ∧ type.construct i.primitive = .ok i) ∧
    ∀ (schema : Schema) (record : Value), schema.WellFormed → schema.EveryCustom (· = type) →
      record.WellFormed → (∃ c, (Factory.ofSchema schema).create record = .ok c) →
      ∀ options, (∃ e, (Factory.ofSchema schema).parse options record = .error (.construction e)) ↔
        ∃ path v, schema.Governs record path type v ∧ Hollow v := by
  refine ⟨constructible_iff_accepted, fun v i made => constructed_again made, ?_⟩
  intro schema record wellFormed onlyInt distinct created options
  have conforms : schema.Conforms record := (Factory.create_eq_ok_iff schema record).1 created
  simp only [Factory.parse_eq_construction_iff]
  exact exists_coerce_error_iff wellFormed onlyInt distinct conforms

def booking : Schema :=
  [(⟨"day", .required⟩, .custom type)]

def bookedOn (day : Value) : Value :=
  .mapping [("day", day)]

def hollowDay : Value :=
  .custom typeName (.string "42")

/-- An instance around a text is accepted and not constructed, and a booking for it is created and
not parsed. -/
theorem hollow_day_accepted :
    type.accepts hollowDay = true ∧ (¬ ∃ i, type.construct hollowDay = .ok i) ∧
    (∃ c, (Factory.ofSchema booking).create (bookedOn hollowDay) = .ok c) ∧
    (Factory.ofSchema booking).parse ⟨false⟩ (bookedOn hollowDay) =
      .error (.construction (refusal "42")) := by
  refine ⟨rfl, ?_, ⟨_, rfl⟩, rfl⟩
  rintro ⟨i, made⟩
  have refused : type.construct hollowDay = .error (refusal "42") := rfl
  rw [refused] at made
  cases made

def nestedDay : Value :=
  .custom typeName (.custom typeName (.number (.zero true)))

theorem booking_parsed :
    (∃ i, type.construct nestedDay = .ok i ∧
      type.accepts i.toValue = true ∧ type.construct i.primitive = .ok i) ∧
    booking.WellFormed ∧ booking.EveryCustom (· = type) ∧ (bookedOn nestedDay).WellFormed ∧
    (∃ c, (Factory.ofSchema booking).create (bookedOn nestedDay) = .ok c) ∧
    ∀ options e, (Factory.ofSchema booking).parse options (bookedOn nestedDay) ≠
      .error (.construction e) := by
  obtain ⟨constructible, again, parses⟩ := construction_follows_acceptance
  have day : StandsFor (.zero true) nestedDay :=
    .custom (.custom (.number (Number.isInteger_zero true)))
  obtain ⟨i, made⟩ := (constructible _).2
    ⟨(accepts_iff _).2 (.inl ⟨_, day⟩), fun hollow => hollow.2 _ day⟩
  obtain ⟨-, ⟨accepted, -⟩, -, remade⟩ := again _ i made
  have wellFormed : booking.WellFormed :=
    ⟨by decide, List.forall_mem_singleton.2 (.custom _)⟩
  have onlyInt : booking.EveryCustom (· = type) :=
    List.forall_mem_singleton.2 (.custom rfl)
  have distinct : (bookedOn nestedDay).WellFormed := by
    simp [bookedOn, nestedDay, Value.WellFormed, Value.WellFormedMembers, Members.names]
  have created : ∃ c, (Factory.ofSchema booking).create (bookedOn nestedDay) = .ok c :=
    ⟨_, rfl⟩
  refine ⟨⟨i, made, accepted, remade⟩, wellFormed, onlyInt, distinct, created, ?_⟩
  intro options e failed
  obtain ⟨path, v, governs, hollow⟩ :=
    (parses booking _ wellFormed onlyInt distinct created options).1 ⟨e, failed⟩
  cases governs with
  | member mem declared named h =>
      obtain rfl := List.mem_singleton.1 mem
      obtain rfl := List.mem_singleton.1 declared
      cases h
      exact hollow.2 _ day

end IntegerNumber

end RecordSchema
