import RecordSchema.Proofs.Coercion
import RecordSchema.Proofs.Parsing

namespace RecordSchema

namespace Schema

theorem coerce_mapping_self {schema : Schema} {members : Record}
    (each : ∀ m ∈ members, ∀ field, schema.field? m.1 = some field →
      field.2.coerce m.2 = .ok m.2) :
    schema.coerce (.mapping members) = .ok (.mapping members) := by
  refine (schema.coerce_mapping_eq_ok_iff members _).2 ⟨members, ?_, rfl⟩
  refine List.forall₂_same.2 fun m mem => ⟨rfl, ?_⟩
  rw [coerceMember]
  cases found : schema.field? m.1 with
  | none => rfl
  | some field => exact each m mem field found

end Schema

theorem FieldType.coerce_sequence_self {schema : Schema} {items : List Value}
    (each : ∀ item ∈ items, schema.coerce item = .ok item) :
    coerce (.nested schema) (.sequence items) = .ok (.sequence items) := by
  rw [coerce_nested_sequence, Fallible.mapM_eq_self each]
  rfl

namespace Value

inductive InstanceFree : Value → Prop
  | undefined : InstanceFree .undefined
  | null : InstanceFree .null
  | bool (b : Bool) : InstanceFree (.bool b)
  | number (n : Number) : InstanceFree (.number n)
  | string (s : String) : InstanceFree (.string s)
  | sequence {items : List Value} (h : ∀ item ∈ items, InstanceFree item) :
      InstanceFree (.sequence items)
  | mapping {members : Record} (h : ∀ m ∈ members, InstanceFree m.2) :
      InstanceFree (.mapping members)
  | function (id : Nat) : InstanceFree (.function id)

theorem InstanceFree.of_mem_entries {v : Value} (h : v.InstanceFree) {m : String × Value}
    (mem : m ∈ v.entries) : m.2.InstanceFree := by
  cases h with
  | sequence free =>
      obtain ⟨i, at_i, -⟩ := mem_entriesFrom.1 mem
      exact free _ (List.mem_of_getElem? at_i)
  | mapping free => exact free m mem
  | undefined | null | bool | number | string | function => cases mem

end Value

def CustomType.KeepsAccepted (c : CustomType) : Prop :=
  ∀ v : Value, v.InstanceFree → c.accepts v = true → (FieldType.custom c).coerce v = .ok v

theorem Primitive.Admits.coerce_self {p : Primitive} {v : Value} (h : p.Admits v) :
    p.coerce v = v := by
  cases h <;> rfl

theorem TypeUnion.coerce_of_accepts {u : TypeUnion} {v : Value} (h : u.accepts v = true) :
    u.coerce v = v := by
  rw [TypeUnion.coerce, if_pos h]

theorem FieldType.coerce_of_convert {type : FieldType} (direct : ∀ schema, type ≠ .nested schema)
    {v : Value} (h : type.convert v = .ok v) : type.coerce v = .ok v := by
  rw [coerce_of_not_nested direct, h, ite_self]

/-- A conforming record stays if every field leaves the members that its type admits. -/
theorem Schema.Conforms.coerce_self {schema : Schema} {record : Value} (h : schema.Conforms record)
    (distinct : record.WellFormed)
    (each : ∀ field ∈ schema, ∀ m ∈ record.entries, field.2.Admits m.2 →
      field.2.coerce m.2 = .ok m.2) : schema.coerce record = .ok record := by
  by_cases mapping : ∃ members, record = .mapping members
  · obtain ⟨members, rfl⟩ := mapping
    refine coerce_mapping_self fun m from_m field found => ?_
    -- The field is content with the member that it looks up, and names are not repeated.
    have content := (conforms_iff_content _ _).1 h field (mem_of_field? found)
    rw [name_of_field? found, Value.member_of_mem_entries distinct from_m] at content
    cases content with
    | excused _ nullish => exact FieldType.coerce_of_nullish _ nullish
    | admitted admits => exact each _ (mem_of_field? found) m from_m admits
  · exact coerce_of_not_mapping schema (not_exists.1 mapping)

theorem FieldType.Admits.coerce_self {type : FieldType}
    (kept : type.EveryCustom CustomType.KeepsAccepted) {v : Value} (distinct : v.WellFormed)
    (free : v.InstanceFree) (h : type.Admits v) : type.coerce v = .ok v := by
  induction type using FieldType.induction generalizing v with
  | primitive p =>
      cases h with
      | primitive h => exact coerce_of_convert (by simp) (congrArg Except.ok h.coerce_self)
  | union u =>
      have accepted : u.accepts v = true := by
        cases h with
        | union mem h => exact (TypeUnion.accepts_iff u v).2 ⟨_, mem, h⟩
      exact coerce_of_convert (by simp) (congrArg Except.ok (TypeUnion.coerce_of_accepts accepted))
  | custom c =>
      cases kept with
      | custom kept =>
          cases h with
          | custom accepted => exact kept v free accepted
  | nested schema ih =>
      cases kept with
      | nested kept =>
          have fields {record : Value} (distinct : record.WellFormed) (free : record.InstanceFree)
              (h : schema.Conforms record) : schema.coerce record = .ok record :=
            h.coerce_self distinct fun field mem m from_m =>
              ih field mem (kept field mem) (distinct.of_mem_entries from_m)
                (free.of_mem_entries from_m)
          cases h with
          | mapping conforms =>
              rw [coerce_nested_of_not_sequence schema (by simp)]
              exact fields distinct free conforms
          | @sequence _ items mappings each =>
              refine coerce_sequence_self fun item mem => ?_
              have inner := (Value.wellFormed_sequence_iff items).1 distinct item mem
              cases free with
              | sequence free => exact fields inner (free item mem) (each item mem)

namespace IntegerNumber

theorem construct_number {n : Number} (h : n.isInteger = true) :
    type.construct (.number n) = .ok ⟨typeName, .number n⟩ := by
  have made : ofNumber n = .ok ⟨n, h⟩ := dif_pos h
  simp only [type, ofValue, made, Except.map, toInstance]

theorem construct_instance (v : Value) :
    type.construct (.custom typeName v) = type.construct v := by
  simp only [type, ofValue, if_true]

theorem convert_number {n : Number} (h : n.isInteger = true) :
    (FieldType.custom type).convert (.number n) = .ok (.number n) := by
  rw [FieldType.convert, construct_number h, Except.map]

theorem coerce_number {n : Number} (h : n.isInteger = true) :
    (FieldType.custom type).coerce (.number n) = .ok (.number n) :=
  FieldType.coerce_of_convert (by simp) (convert_number h)

theorem keepsAccepted : type.KeepsAccepted := by
  intro v free accepted
  cases free with
  | number n => exact coerce_number accepted
  | undefined | null | bool | string | sequence | mapping | function => cases accepted

end IntegerNumber

/-- Parsing leaves a valid record without instances as it is, with and without validation, and the
container made on the way is the one that creation makes. -/
theorem valid_record_unchanged {schema : Schema} {record : Value} {c : Container}
    (onlyInt : schema.EveryCustom (· = IntegerNumber.type)) (distinct : record.WellFormed)
    (free : record.InstanceFree) (valid : (Factory.ofSchema schema).create record = .ok c) :
    (∀ options, (Factory.ofSchema schema).parse options record = .ok record) ∧
    (Factory.ofSchema schema).parseCreate record = .ok c ∧ c.record = record := by
  have kept : schema.EveryCustom CustomType.KeepsAccepted := fun field mem =>
    (onlyInt field mem).imp fun _ same => same ▸ IntegerNumber.keepsAccepted
  have conforms : schema.Conforms record := (Factory.create_eq_ok_iff schema record).1 ⟨c, valid⟩
  have fixed : schema.coerce record = .ok record :=
    conforms.coerce_self distinct fun field mem m from_m =>
      FieldType.Admits.coerce_self (kept field mem) (distinct.of_mem_entries from_m)
        (free.of_mem_entries from_m)
  refine ⟨?_, ?_, Factory.create_record valid⟩
  · rintro ⟨_ | _⟩
    · exact (Factory.parse_unvalidated_eq_ok_iff schema record record).2 fixed
    · exact (Factory.parse_eq_ok_iff schema record record).2 ⟨fixed, conforms⟩
  · exact (Factory.parseCreate_eq_ok_iff schema record c).2 ⟨record, fixed, valid⟩

def visit (guide : TypeUnion) : Schema :=
  [(⟨"day", .required⟩, .custom IntegerNumber.type), (⟨"guide", .required⟩, .union guide)]

def visitor : Schema :=
  [(⟨"visits", .trailing⟩, .nested (visit ⟨"string|mixed", [.string, .mixed]⟩))]

def visitOn (day guide : Value) : Value :=
  .mapping [("guide", guide), ("day", day)]

def visitedOnce (day guide : Value) : Value :=
  .mapping [("visits", .sequence [visitOn day guide])]

theorem everyCustom_visit (guide : TypeUnion) {p : CustomType → Prop} (h : p IntegerNumber.type) :
    (visit guide).EveryCustom p := by
  simp only [Schema.EveryCustom, visit, List.forall_mem_cons]
  exact ⟨.custom h, .union guide, by simp⟩

theorem wellFormed_visitedOnce {day guide : Value} (hd : day.WellFormed) (hg : guide.WellFormed) :
    (visitedOnce day guide).WellFormed := by
  simp [visitedOnce, visitOn, Value.WellFormed, Value.WellFormedItems, Value.WellFormedMembers,
    Members.names, hd, hg]

/-- The day is a negative zero, and null stands for a required guide. -/
theorem valid_record_unchanged_of_visit :
    ∃ c, (Factory.ofSchema visitor).create (visitedOnce (.number (.zero true)) .null) = .ok c ∧
      (∀ options, (Factory.ofSchema visitor).parse options
        (visitedOnce (.number (.zero true)) .null) =
          .ok (visitedOnce (.number (.zero true)) .null)) ∧
      (Factory.ofSchema visitor).parseCreate
        (visitedOnce (.number (.zero true)) .null) = .ok c ∧
      c.record = visitedOnce (.number (.zero true)) .null := by
  have onlyInt : visitor.EveryCustom (· = IntegerNumber.type) := by
    simp only [Schema.EveryCustom, visitor, List.forall_mem_singleton]
    exact .nested (everyCustom_visit _ rfl)
  have conforms : visitor.Conforms (visitedOnce (.number (.zero true)) .null) := by
    rw [← Schema.mismatch?_eq_none_iff, ← Option.isNone_iff_eq_none]
    decide +kernel
  have free : (visitedOnce (.number (.zero true)) .null).InstanceFree := by
    refine .mapping (List.forall_mem_singleton.2 ?_)
    refine .sequence (List.forall_mem_singleton.2 ?_)
    exact .mapping (List.forall_mem_cons.2 ⟨.null, List.forall_mem_singleton.2 (.number _)⟩)
  obtain ⟨c, valid⟩ := (Factory.create_eq_ok_iff visitor _).2 conforms
  exact ⟨c, valid,
    valid_record_unchanged onlyInt (wellFormed_visitedOnce trivial trivial) free valid⟩

/-- The primitive value of whatever the type constructs is coerced to itself. -/
def CustomType.Stable (c : CustomType) : Prop :=
  ∀ (v : Value) (i : Instance), c.construct v = .ok i →
    (FieldType.custom c).coerce i.primitive = .ok i.primitive

theorem Primitive.coerce_coerce (p : Primitive) (v : Value) : p.coerce (p.coerce v) = p.coerce v := by
  cases p with
  | array => cases v <;> rfl
  | _ => rfl

namespace TypeUnion

theorem accepts_converted {u : TypeUnion} {p : Primitive}
    (h : u.members.findSome? TypeName.primitive? = some p) (v : Value) :
    u.accepts (p.coerce v) = true := by
  obtain ⟨name, mem, converts⟩ := List.exists_of_findSome?_eq_some h
  refine List.any_eq_true.2 ⟨name, mem, ?_⟩
  cases name <;> cases converts <;> rfl

theorem coerce_coerce (u : TypeUnion) (v : Value) : u.coerce (u.coerce v) = u.coerce v := by
  by_cases accepted : u.accepts v = true
  · rw [coerce_of_accepts accepted, coerce_of_accepts accepted]
  · cases convertible : u.members.findSome? TypeName.primitive? with
    | none =>
        have stays : u.coerce v = v := by rw [coerce, if_neg accepted, convertible]
        rw [stays, stays]
    | some p =>
        have converted : u.coerce v = p.coerce v := by rw [coerce, if_neg accepted, convertible]
        rw [converted, coerce_of_accepts (accepts_converted convertible v)]

end TypeUnion

theorem Schema.coerce_coerced {schema : Schema}
    (each : ∀ field ∈ schema, ∀ v w : Value, field.2.coerce v = .ok w → field.2.coerce w = .ok w)
    {v w : Value} (h : schema.coerce v = .ok w) : schema.coerce w = .ok w := by
  by_cases mapping : ∃ members, v = .mapping members
  · obtain ⟨members, rfl⟩ := mapping
    obtain ⟨coerced, steps, rfl⟩ := (schema.coerce_mapping_eq_ok_iff members w).1 h
    refine coerce_mapping_self fun g from_g field found => ?_
    obtain ⟨m, -, named, made⟩ := Fallible.forall₂_exists_left steps from_g
    -- Names are kept, so the field that made the member is the one that meets it again.
    rw [named] at found
    rw [coerceMember, found] at made
    exact each field (mem_of_field? found) m.2 g.2 made
  · rw [coerce_of_not_mapping schema (not_exists.1 mapping)] at h
    cases h
    exact coerce_of_not_mapping schema (not_exists.1 mapping)

namespace FieldType

theorem coerce_converted {type : FieldType} (direct : ∀ schema, type ≠ .nested schema)
    (each : ∀ v w : Value, type.convert v = .ok w → type.coerce w = .ok w) {v w : Value}
    (h : type.coerce v = .ok w) : type.coerce w = .ok w := by
  cases present : v.isNullish with
  | true =>
      have nullish := (Value.isNullish_iff v).1 present
      rw [coerce_of_nullish type nullish] at h
      cases h
      exact coerce_of_nullish type nullish
  | false =>
      rw [coerce_of_present direct present] at h
      exact each v w h

/-- What coercion has made of a value is left as it is. -/
theorem coerce_coerced {type : FieldType} (stable : type.EveryCustom CustomType.Stable)
    {v w : Value} (h : type.coerce v = .ok w) : type.coerce w = .ok w := by
  induction type using FieldType.induction generalizing v w with
  | primitive p =>
      refine coerce_converted (by simp) (fun v w made => ?_) h
      cases made
      exact coerce_of_convert (by simp) (congrArg Except.ok (p.coerce_coerce v))
  | union u =>
      refine coerce_converted (by simp) (fun v w made => ?_) h
      cases made
      exact coerce_of_convert (by simp) (congrArg Except.ok (u.coerce_coerce v))
  | custom c =>
      cases stable with
      | custom stable =>
          refine coerce_converted (by simp) (fun v w made => ?_) h
          obtain ⟨i, constructed, rfl⟩ := Fallible.map_eq_ok.1 made
          exact stable v i constructed
  | nested schema ih =>
      cases stable with
      | nested stable =>
          have fields {v w : Value} (h : schema.coerce v = .ok w) : schema.coerce w = .ok w :=
            Schema.coerce_coerced (fun field mem _ _ => ih field mem (stable field mem)) h
          cases v with
          | sequence items =>
              rw [coerce_nested_sequence] at h
              obtain ⟨coerced, steps, rfl⟩ := Fallible.map_eq_ok.1 h
              refine coerce_sequence_self fun item mem => ?_
              obtain ⟨v, -, made⟩ :=
                Fallible.forall₂_exists_left (Fallible.mapM_eq_ok.1 steps) mem
              exact fields made
          | mapping members =>
              rw [coerce_nested_of_not_sequence schema (by simp)] at h
              obtain ⟨coerced, -, rfl⟩ := (schema.coerce_mapping_eq_ok_iff members w).1 h
              rw [coerce_nested_of_not_sequence schema (by simp)]
              exact fields h
          | _ =>
              cases h
              rw [coerce_nested_of_not_sequence schema (by simp)]
              rfl

end FieldType

theorem IntegerNumber.stable : type.Stable := by
  intro v i constructed
  obtain ⟨n, -, rfl⟩ := Fallible.map_eq_ok.1 constructed
  exact coerce_number n.isInteger

/-- Coercion of what coercion has made changes nothing, if no custom type changes the primitive
values that it makes. `Int` does not. -/
theorem coercion_idempotent :
    (∀ (schema : Schema) (record coerced : Value), schema.EveryCustom CustomType.Stable →
      schema.coerce record = .ok coerced → schema.coerce coerced = .ok coerced) ∧
    IntegerNumber.type.Stable := by
  refine ⟨?_, IntegerNumber.stable⟩
  intro schema record coerced stable made
  refine Schema.coerce_coerced ?_ made
  intro field mem v w h
  exact FieldType.coerce_coerced (stable field mem) h

/-- The day is an instance within an instance, and the guide is converted to a boolean. -/
theorem coercion_idempotent_of_nested_instance :
    (visit ⟨"array|boolean", [.array, .boolean]⟩).EveryCustom CustomType.Stable ∧
    (visit ⟨"array|boolean", [.array, .boolean]⟩).coerce
      (visitOn (.custom "Int" (.custom "Int" (.number (.zero true)))) (.string " Yes ")) =
        .ok (visitOn (.number (.zero true)) (.bool true)) ∧
    (visit ⟨"array|boolean", [.array, .boolean]⟩).coerce
      (visitOn (.number (.zero true)) (.bool true)) =
        .ok (visitOn (.number (.zero true)) (.bool true)) := by
  have stable := everyCustom_visit ⟨"array|boolean", [.array, .boolean]⟩ IntegerNumber.stable
  have day : (FieldType.custom IntegerNumber.type).coerce
      (.custom "Int" (.custom "Int" (.number (.zero true)))) = .ok (.number (.zero true)) := by
    have made := (IntegerNumber.construct_instance _).trans
      ((IntegerNumber.construct_instance _).trans
        (IntegerNumber.construct_number (Number.isInteger_zero true)))
    rw [FieldType.coerce_of_present (by simp) rfl, FieldType.convert]
    exact congrArg (Except.map Instance.primitive) made
  have made : (visit ⟨"array|boolean", [.array, .boolean]⟩).coerce
      (visitOn (.custom "Int" (.custom "Int" (.number (.zero true)))) (.string " Yes ")) =
        .ok (visitOn (.number (.zero true)) (.bool true)) :=
    (Schema.coerce_mapping_eq_ok_iff _ _ _).2
      ⟨[("guide", .bool true), ("day", .number (.zero true))],
        .cons ⟨rfl, rfl⟩ (.cons ⟨rfl, day⟩ .nil), rfl⟩
  exact ⟨stable, made, coercion_idempotent.1 _ _ _ stable made⟩

end RecordSchema
