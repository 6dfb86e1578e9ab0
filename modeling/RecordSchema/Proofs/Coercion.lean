import RecordSchema.Coercion
import RecordSchema.Proofs.Compilation
import RecordSchema.Proofs.JsonForm
import RecordSchema.Schema.Int

namespace RecordSchema

namespace Schema

def coerceMember (schema : Schema) (m : String × Value) : Except ConstructionError Value :=
  match schema.field? m.1 with
  | some field => field.2.coerce m.2
  | none => .ok m.2

theorem coerceMembers_eq_mapM (schema : Schema) (members : Record) :
    FieldType.coerceMembers schema members =
      members.mapM fun m => (schema.coerceMember m).map fun v => (m.1, v) := by
  induction members with
  | nil => rfl
  | cons m r ih =>
      rw [FieldType.coerceMembers, ih, List.mapM_cons, coerceMember]
      cases schema.field? m.1 with
      | none => rfl
      | some field =>
          dsimp only
          cases field.2.coerce m.2 <;> rfl

theorem coerce_of_not_mapping (schema : Schema) {v : Value} (h : ∀ members, v ≠ .mapping members) :
    schema.coerce v = .ok v := by
  cases v with
  | mapping members => exact absurd rfl (h members)
  | _ => rfl

/-- The coerced mapping has the names of the record in its order, each with its coerced member. -/
theorem coerce_mapping_eq_ok_iff (schema : Schema) (members : Record) (w : Value) :
    schema.coerce (.mapping members) = .ok w ↔
      ∃ coerced, List.Forall₂ (fun m g => g.1 = m.1 ∧ schema.coerceMember m = .ok g.2)
        members coerced ∧ w = .mapping coerced := by
  have step (m g : String × Value) :
      (schema.coerceMember m).map (fun v => (m.1, v)) = .ok g ↔
        g.1 = m.1 ∧ schema.coerceMember m = .ok g.2 := by
    rw [Fallible.map_eq_ok]
    constructor
    · rintro ⟨v, made, rfl⟩
      exact ⟨rfl, made⟩
    · rintro ⟨named, made⟩
      exact ⟨g.2, made, by rw [← named]⟩
  rw [coerce, Fallible.bind_eq_ok, coerceMembers_eq_mapM]
  simp only [Fallible.mapM_eq_ok, step, pure, Except.pure, Except.ok.injEq, @eq_comm _ w]

theorem coerceItems_eq_mapM (schema : Schema) (items : List Value) :
    FieldType.coerceItems schema items = items.mapM schema.coerce := by
  induction items with
  | nil => rfl
  | cons v r ih =>
      rw [List.mapM_cons, ← ih]
      cases v with
      | mapping members =>
          rw [FieldType.coerceItems, coerce]
          cases FieldType.coerceMembers schema members <;> rfl
      | _ =>
          rw [FieldType.coerceItems, coerce_of_not_mapping schema (by simp)]
          · rfl
          · simp

theorem coerce_congr {schema other : Schema} (h : schema.coerceMember = other.coerceMember) :
    schema.coerce = other.coerce := by
  funext v
  cases v with
  | mapping members => rw [coerce, coerce, coerceMembers_eq_mapM, coerceMembers_eq_mapM, h]
  | _ => rfl

/-- Coercion asks a schema only which type a name has. -/
theorem coerce_eq_of_fields {R : Field → Field → Prop} {schema other : Schema}
    (named : ∀ name, Option.Rel R (schema.field? name) (other.field? name))
    (each : ∀ f ∈ schema, ∀ g, R f g → f.2.coerce = g.2.coerce) :
    schema.coerce = other.coerce := by
  apply coerce_congr
  funext m
  rw [coerceMember, coerceMember]
  rcases Fallible.rel_cases (named m.1) with ⟨left, right⟩ | ⟨f, g, left, right, related⟩
  · rw [left, right]
  · rw [left, right]
    exact congrFun (each f (mem_of_field? left) g related) m.2

end Schema

namespace FieldType

theorem coerceMembers_of_declared {schema : Schema} {k : String} {field : Field}
    (declared : schema.field? k = some field) (v : Value) (r : Record) :
    coerceMembers schema ((k, v) :: r) = (field.2.coerce v).bind fun w =>
      (coerceMembers schema r).map fun coerced => (k, w) :: coerced := by
  simp only [coerceMembers, declared]
  cases field.2.coerce v <;> cases coerceMembers schema r <;> rfl

theorem coerceMembers_of_undeclared {schema : Schema} {k : String}
    (undeclared : schema.field? k = none) (v : Value) (r : Record) :
    coerceMembers schema ((k, v) :: r) =
      (coerceMembers schema r).map fun coerced => (k, v) :: coerced := by
  simp only [coerceMembers, undeclared]
  cases coerceMembers schema r <;> rfl

theorem coerce_nested_sequence (schema : Schema) (items : List Value) :
    coerce (.nested schema) (.sequence items) =
      (items.mapM schema.coerce).map Value.sequence := by
  rw [coerce, Schema.coerceItems_eq_mapM]
  rfl

theorem coerce_nested_of_not_sequence (schema : Schema) {v : Value}
    (h : ∀ items, v ≠ .sequence items) : coerce (.nested schema) v = schema.coerce v := by
  cases v with
  | sequence items => exact absurd rfl (h items)
  | _ => rw [coerce] <;> first | rfl | simp

theorem coerce_nested_congr {schema other : Schema} (h : schema.coerce = other.coerce) :
    coerce (.nested schema) = coerce (.nested other) := by
  funext v
  by_cases sequence : ∃ items, v = .sequence items
  · obtain ⟨items, rfl⟩ := sequence
    rw [coerce_nested_sequence, coerce_nested_sequence, h]
  · rw [coerce_nested_of_not_sequence schema (not_exists.1 sequence),
      coerce_nested_of_not_sequence other (not_exists.1 sequence), h]

theorem coerce_of_nullish (type : FieldType) {v : Value} (h : v = .undefined ∨ v = .null) :
    type.coerce v = .ok v := by
  obtain rfl | rfl := h <;> rw [coerce]

theorem coerce_of_not_nested {type : FieldType} (h : ∀ schema, type ≠ .nested schema) (v : Value) :
    type.coerce v = if v.isNullish then .ok v else type.convert v := by
  cases type with
  | nested schema => exact absurd rfl (h schema)
  | primitive | union | custom => cases v <;> rw [coerce] <;> first | rfl | simp

theorem coerce_of_present {type : FieldType} (direct : ∀ schema, type ≠ .nested schema) {v : Value}
    (present : v.isNullish = false) : type.coerce v = type.convert v := by
  rw [coerce_of_not_nested direct, present, if_neg Bool.false_ne_true]

end FieldType

/-- A custom type makes plain values, and accepts again what the JSON form of a value that it
accepts is read as, numbers that are not finite apart. -/
structure CustomType.KeptByJson (c : CustomType) : Prop where
  plain : ∀ {v : Value} {i : Instance}, c.construct v = .ok i → i.primitive.Plain
  accepts : ∀ {v : Value}, v.Plain → (∀ n, v = .number n → n.isFinite = true) →
    c.accepts v = true → c.accepts v.reread = true

namespace Value.Plain

theorem coerce_primitive {v : Value} (h : v.Plain) (p : Primitive) : (p.coerce v).Plain := by
  cases p with
  | boolean => exact .bool _
  | number => exact .number _
  | string => exact .string _
  | object | function => exact h
  | array =>
      cases v with
      | sequence items => exact h
      | _ => exact .sequence (by simpa using h)

theorem coerce_union {v : Value} (h : v.Plain) (u : TypeUnion) : (u.coerce v).Plain := by
  rw [TypeUnion.coerce]
  split
  · exact h
  · split
    · exact h.coerce_primitive _
    · exact h

theorem convert {type : FieldType} (kept : type.EveryCustom CustomType.KeptByJson) {v w : Value}
    (h : v.Plain) (made : type.convert v = .ok w) : w.Plain := by
  cases kept with
  | primitive p =>
      cases made
      exact h.coerce_primitive p
  | union u =>
      cases made
      exact h.coerce_union u
  | nested =>
      cases made
      exact h
  | custom kept =>
      obtain ⟨i, constructed, rfl⟩ := Fallible.map_eq_ok.1 made
      exact kept.plain constructed

theorem coerce_fields {schema : Schema} {v w : Value} (h : v.Plain)
    (each : ∀ field ∈ schema, ∀ {v w : Value}, v.Plain → field.2.coerce v = .ok w → w.Plain)
    (made : schema.coerce v = .ok w) : w.Plain := by
  cases h with
  | @mapping members plain =>
      obtain ⟨coerced, steps, rfl⟩ := (schema.coerce_mapping_eq_ok_iff members w).1 made
      refine .mapping fun g mem => ?_
      obtain ⟨m, from_m, -, step⟩ := Fallible.forall₂_exists_left steps mem
      rw [Schema.coerceMember] at step
      split at step
      · next field found =>
          exact each field (Schema.mem_of_field? found) (plain m from_m) step
      · rw [← Except.ok.inj step]
        exact plain m from_m
  | null => cases made; exact .null
  | bool b => cases made; exact .bool b
  | number n => cases made; exact .number n
  | string s => cases made; exact .string s
  | sequence plain => cases made; exact .sequence plain

theorem coerce_whole {type : FieldType} (kept : type.EveryCustom CustomType.KeptByJson)
    (direct : ∀ schema, type ≠ .nested schema) {v w : Value} (h : v.Plain)
    (made : type.coerce v = .ok w) : w.Plain := by
  rw [FieldType.coerce_of_not_nested direct] at made
  split at made
  · cases made
    exact h
  · exact h.convert kept made

/-- What is coerced to a type out of a plain value is plain. -/
theorem coerce {type : FieldType} (kept : type.EveryCustom CustomType.KeptByJson) {v w : Value}
    (h : v.Plain) (made : type.coerce v = .ok w) : w.Plain := by
  induction type using FieldType.induction generalizing v w with
  | nested schema ih =>
      cases kept with
      | nested kept =>
          have fields {v w : Value} (h : v.Plain) (made : schema.coerce v = .ok w) : w.Plain :=
            h.coerce_fields (fun field mem _ _ => ih field mem (kept field mem)) made
          by_cases sequence : ∃ items, v = .sequence items
          · obtain ⟨items, rfl⟩ := sequence
            cases h with
            | sequence plain =>
                rw [FieldType.coerce_nested_sequence] at made
                obtain ⟨coerced, steps, rfl⟩ := Fallible.map_eq_ok.1 made
                rw [Fallible.mapM_eq_ok] at steps
                refine .sequence fun item mem => ?_
                obtain ⟨v, from_v, step⟩ := Fallible.forall₂_exists_left steps mem
                exact fields (plain v from_v) step
          · simp only [not_exists] at sequence
            rw [FieldType.coerce_nested_of_not_sequence schema sequence] at made
            exact fields h made
  | primitive | union | custom => exact h.coerce_whole kept (by simp) made

end Value.Plain

theorem Schema.plain_of_coerce {schema : Schema}
    (kept : schema.EveryCustom CustomType.KeptByJson) {v w : Value} (h : v.Plain)
    (made : schema.coerce v = .ok w) : w.Plain :=
  h.coerce_fields (fun field mem _ _ h made => h.coerce (kept field mem) made) made

theorem IntegerNumber.type_accepts_number (n : Number) :
    type.accepts (.number n) = n.isInteger :=
  rfl

theorem IntegerNumber.keptByJson : IntegerNumber.type.KeptByJson where
  plain {v i} made := by
    obtain ⟨n, -, rfl⟩ := Fallible.map_eq_ok.1 made
    exact .number n.number
  accepts {v} plain finite accepted := by
    cases plain with
    | number n =>
        obtain same | ⟨-, same⟩ := Value.reread_number_of_finite (finite n rfl)
        · rw [same]
          exact accepted
        · rw [same, type_accepts_number]
          exact Number.isInteger_zero false
    | null | bool | string | sequence | mapping => cases accepted

end RecordSchema
