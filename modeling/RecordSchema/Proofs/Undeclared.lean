import RecordSchema.Proofs.Coercion
import RecordSchema.Proofs.FirstMismatch

namespace RecordSchema

section Parts

variable (leaf : Value → Value) (others : Bool)

namespace FieldType

mutual

/-- A part of a value. In mappings that a schema governs, each declared member is parted by its
type, and other members are kept if `others` says so; `leaf` is taken of what a type governs as a
whole. -/
def part (type : FieldType) : Value → Value
  | .mapping members =>
    match type with
    | nested schema => .mapping (partMembers schema members)
    | _ => leaf (.mapping members)
  | .sequence items =>
    match type with
    | nested schema => .sequence (partItems schema items)
    | _ => leaf (.sequence items)
  | v =>
    match type with
    | nested _ => v
    | _ => leaf v

def partMembers (schema : List (FieldKey × FieldType)) :
    List (String × Value) → List (String × Value)
  | [] => []
  | (k, v) :: r =>
    match Schema.field? schema k with
    | some field => (k, part field.2 v) :: partMembers schema r
    | none => if others then (k, v) :: partMembers schema r else partMembers schema r

def partItems (schema : List (FieldKey × FieldType)) : List Value → List Value
  | [] => []
  | .mapping members :: r => .mapping (partMembers schema members) :: partItems schema r
  | v :: r => v :: partItems schema r

end

end FieldType

def Schema.part (schema : Schema) : Value → Value
  | .mapping members => .mapping (FieldType.partMembers leaf others schema members)
  | v => v

theorem Schema.isMapping_part (schema : Schema) (v : Value) :
    (schema.part leaf others v).isMapping = v.isMapping := by
  cases v <;> rfl

namespace FieldType

theorem part_of_not_nested {type : FieldType} (h : ∀ schema, type ≠ .nested schema) (v : Value) :
    type.part leaf others v = leaf v := by
  cases type with
  | nested schema => exact absurd rfl (h schema)
  | primitive | union | custom => cases v <;> rw [part] <;> simp

theorem part_nested_sequence (schema : Schema) (items : List Value) :
    part leaf others (.nested schema) (.sequence items) =
      .sequence (items.map (schema.part leaf others)) := by
  rw [part]
  congr 1
  induction items with
  | nil => rfl
  | cons v r ih =>
      rw [List.map_cons, ← ih]
      cases v <;> rfl

theorem part_nested_of_not_sequence (schema : Schema) {v : Value}
    (h : ∀ items, v ≠ .sequence items) :
    part leaf others (.nested schema) v = schema.part leaf others v := by
  cases v with
  | sequence items => exact absurd rfl (h items)
  | _ => rfl

theorem isNullish_part (type : FieldType) (v : Value) :
    (type.part id others v).isNullish = v.isNullish := by
  cases type <;> cases v <;> rfl

theorem partMembers_of_declared {schema : Schema} {k : String} {field : Field}
    (declared : schema.field? k = some field) (v : Value) (r : Record) :
    partMembers leaf others schema ((k, v) :: r) =
      (k, field.2.part leaf others v) :: partMembers leaf others schema r := by
  simp only [partMembers, declared]

theorem partMembers_of_undeclared {schema : Schema} {k : String}
    (undeclared : schema.field? k = none) (v : Value) (r : Record) :
    partMembers leaf others schema ((k, v) :: r) =
      if others then (k, v) :: partMembers leaf others schema r
      else partMembers leaf others schema r := by
  simp only [partMembers, undeclared]

theorem lookup_partMembers {schema : Schema} {name : String} {field : Field}
    (declared : schema.field? name = some field) (members : Record) :
    (partMembers leaf others schema members).lookup name =
      (members.lookup name).map (field.2.part leaf others) := by
  induction members with
  | nil => rfl
  | cons m r ih =>
      obtain ⟨k, v⟩ := m
      by_cases here : name = k
      · subst here
        rw [partMembers_of_declared leaf others declared, List.lookup_cons_self,
          List.lookup_cons_self, Option.map_some]
      · have elsewhere (w : Value) (r : Record) : ((k, w) :: r).lookup name = r.lookup name := by
          rw [List.lookup_cons, beq_eq_false_iff_ne.2 here]
        rw [elsewhere, ← ih]
        cases other : schema.field? k with
        | some field => rw [partMembers_of_declared leaf others other, elsewhere]
        | none =>
            rw [partMembers_of_undeclared leaf others other]
            cases others
            · rfl
            · exact elsewhere _ _

end FieldType

section Validation

variable {others}

theorem Field.content_part {field : Field} (h : ∀ v, field.2.Admits (field.2.part id others v) ↔
    field.2.Admits v) (v : Value) :
    Field.Content field (field.2.part id others v) ↔ Field.Content field v := by
  rw [Field.content_iff, Field.content_iff, FieldKey.excuses, FieldKey.excuses,
    FieldType.isNullish_part, h]

theorem Schema.member_part {schema : Schema} (distinct : schema.names.Nodup) {field : Field}
    (mem : field ∈ schema) (members : Record) :
    (schema.part id others (.mapping members)).member field.1.name =
      field.2.part id others ((Value.mapping members).member field.1.name) := by
  have declared := field?_of_mem distinct mem
  rw [part, Value.member, Value.get?, FieldType.lookup_partMembers id others declared,
    Value.member, Value.get?]
  cases members.lookup field.1.name with
  | some v => rfl
  | none => cases field.2 <;> rfl

theorem Schema.conforms_part_of_fields {schema : Schema} (distinct : schema.names.Nodup)
    (each : ∀ field ∈ schema, ∀ v, field.2.Admits (field.2.part id others v) ↔ field.2.Admits v)
    (record : Value) : schema.Conforms (schema.part id others record) ↔ schema.Conforms record := by
  cases record with
  | mapping members =>
      rw [conforms_iff_content, conforms_iff_content]
      refine forall_congr' fun field => imp_congr_right fun mem => ?_
      rw [member_part distinct mem]
      exact Field.content_part (each field mem) _
  | _ => exact Iff.rfl

/-- A type sees nothing of members that are not declared. -/
theorem FieldType.admits_part {type : FieldType} (distinct : type.WellFormed) (v : Value) :
    type.Admits (type.part id others v) ↔ type.Admits v := by
  induction type using FieldType.induction generalizing v with
  | primitive | union | custom => rw [part_of_not_nested id others (by simp), id]
  | nested schema ih =>
      cases distinct with
      | nested distinct fields =>
          have conforms := Schema.conforms_part_of_fields distinct fun field mem =>
            ih field mem (fields field mem)
          cases v with
          | mapping members =>
              rw [part_nested_of_not_sequence id others schema (by simp), admits_mapping_iff,
                ← conforms]
              exact admits_mapping_iff schema _
          | sequence items =>
              rw [part_nested_sequence, admits_sequence_iff, admits_sequence_iff, List.forall_mem_map]
              refine forall₂_congr fun item _ => ?_
              rw [conforms, ← Value.isMapping_iff, ← Value.isMapping_iff, Schema.isMapping_part]
          | _ => exact Iff.rfl

theorem Schema.rejects_part {schema : Schema} (distinct : schema.WellFormed) {field : Field}
    (mem : field ∈ schema) (record : Value) :
    rejects (schema.part id others record) field = rejects record field := by
  cases record with
  | mapping members =>
      rw [Bool.eq_iff_iff, rejects_iff, rejects_iff, member_part distinct.distinct mem,
        Field.content_part (FieldType.admits_part (distinct.fields field mem))]
  | _ => rfl

theorem Schema.firstMismatch?_part {schema : Schema} (distinct : schema.WellFormed)
    (record : Value) :
    schema.firstMismatch? [schema.part id others record] = schema.firstMismatch? [record] :=
  firstMismatch?_congr fun _ mem => rejects_part distinct mem record

end Validation

end Parts

section Coercion

def FieldType.CoercesByPart (type : FieldType) : Prop :=
  ∀ v, (type.coerce v).map (type.part id false) = type.coerce (type.part id false v)

def FieldType.CoercesWithin (type : FieldType) : Prop :=
  ∀ v w, type.coerce v = .ok w →
    type.part (fun _ => .undefined) true w = type.part (fun _ => .undefined) true v

namespace Schema

theorem coerceMembers_part {schema : Schema} (each : ∀ field ∈ schema, field.2.CoercesByPart)
    (members : Record) :
    (FieldType.coerceMembers schema members).map (FieldType.partMembers id false schema) =
      FieldType.coerceMembers schema (FieldType.partMembers id false schema members) := by
  induction members with
  | nil => rfl
  | cons m r ih =>
      obtain ⟨k, v⟩ := m
      cases declared : schema.field? k with
      | some field =>
          rw [FieldType.partMembers_of_declared id false declared,
            FieldType.coerceMembers_of_declared declared,
            FieldType.coerceMembers_of_declared declared, ← ih,
            ← each field (mem_of_field? declared) v]
          cases field.2.coerce v with
          | error e => rfl
          | ok w =>
              cases FieldType.coerceMembers schema r with
              | error e => rfl
              | ok coerced =>
                  exact congrArg Except.ok
                    (FieldType.partMembers_of_declared id false declared w coerced)
      | none =>
          -- The part lacks this member, whose coercion cannot fail.
          rw [FieldType.partMembers_of_undeclared id false declared, if_neg Bool.false_ne_true,
            FieldType.coerceMembers_of_undeclared declared, ← ih]
          cases FieldType.coerceMembers schema r with
          | error e => rfl
          | ok coerced =>
              exact congrArg Except.ok
                (FieldType.partMembers_of_undeclared id false declared v coerced)

theorem coerce_part_of_fields {schema : Schema} (each : ∀ field ∈ schema, field.2.CoercesByPart)
    (record : Value) : (schema.coerce record).map (schema.part id false) =
      schema.coerce (schema.part id false record) := by
  cases record with
  | mapping members =>
      rw [part, coerce, coerce, ← coerceMembers_part each]
      cases FieldType.coerceMembers schema members <;> rfl
  | _ => rfl

end Schema

namespace FieldType

theorem coercesByPart_of_not_nested {type : FieldType} (direct : ∀ schema, type ≠ .nested schema) :
    type.CoercesByPart := by
  have whole : type.part id false = id := funext (part_of_not_nested id false direct)
  intro v
  rw [whole, Except.map_id]
  rfl

theorem coercesByPart (type : FieldType) : type.CoercesByPart := by
  induction type using FieldType.induction with
  | primitive | union | custom => exact coercesByPart_of_not_nested (by simp)
  | nested schema ih =>
      intro v
      cases v with
      | mapping members =>
          rw [part, coerce, coerce, ← Schema.coerceMembers_part ih]
          cases coerceMembers schema members <;> rfl
      | sequence items =>
          rw [part_nested_sequence, coerce_nested_sequence, coerce_nested_sequence,
            ← Fallible.mapM_map fun item _ => Schema.coerce_part_of_fields ih item]
          cases items.mapM schema.coerce with
          | error e => rfl
          | ok coerced => exact congrArg Except.ok (part_nested_sequence id false schema coerced)
      | _ => rfl

end FieldType

theorem Schema.coerceMembers_within {schema : Schema}
    (each : ∀ field ∈ schema, field.2.CoercesWithin) {members coerced : Record}
    (made : FieldType.coerceMembers schema members = .ok coerced) :
    FieldType.partMembers (fun _ => .undefined) true schema coerced =
      FieldType.partMembers (fun _ => .undefined) true schema members := by
  induction members generalizing coerced with
  | nil =>
      cases made
      rfl
  | cons m r ih =>
      obtain ⟨k, v⟩ := m
      cases declared : schema.field? k with
      | some field =>
          rw [FieldType.coerceMembers_of_declared declared] at made
          obtain ⟨w, first, made⟩ := Fallible.bind_eq_ok.1 made
          obtain ⟨_, rest, rfl⟩ := Fallible.map_eq_ok.1 made
          rw [FieldType.partMembers_of_declared _ true declared,
            FieldType.partMembers_of_declared _ true declared, ih rest,
            each field (mem_of_field? declared) v w first]
      | none =>
          rw [FieldType.coerceMembers_of_undeclared declared] at made
          obtain ⟨_, rest, rfl⟩ := Fallible.map_eq_ok.1 made
          rw [FieldType.partMembers_of_undeclared _ true declared,
            FieldType.partMembers_of_undeclared _ true declared, ih rest]

theorem Schema.coerce_within_of_fields {schema : Schema}
    (each : ∀ field ∈ schema, field.2.CoercesWithin) {record w : Value}
    (made : schema.coerce record = .ok w) :
    schema.part (fun _ => .undefined) true w = schema.part (fun _ => .undefined) true record := by
  cases record with
  | mapping members =>
      obtain ⟨coerced, steps, whole⟩ := Fallible.bind_eq_ok.1 made
      cases whole
      exact congrArg Value.mapping (coerceMembers_within each steps)
  | _ =>
      cases made
      rfl

theorem FieldType.coercesWithin (type : FieldType) : type.CoercesWithin := by
  induction type using FieldType.induction with
  | primitive | union | custom =>
      intro v w _
      rw [part_of_not_nested _ true (by simp), part_of_not_nested _ true (by simp)]
  | nested schema ih =>
      intro v w made
      cases v with
      | mapping members =>
          have inner : schema.coerce (.mapping members) = .ok w := made
          obtain ⟨coerced, -, rfl⟩ := (schema.coerce_mapping_eq_ok_iff members w).1 inner
          exact Schema.coerce_within_of_fields ih inner
      | sequence items =>
          rw [coerce_nested_sequence] at made
          obtain ⟨coerced, steps, rfl⟩ := Fallible.map_eq_ok.1 made
          rw [part_nested_sequence, part_nested_sequence]
          exact congrArg Value.sequence
            (Fallible.map_of_mapM_eq_ok (fun _ _ => Schema.coerce_within_of_fields ih) steps)
      | _ =>
          cases made
          rfl

end Coercion

namespace Schema

def declaredPart (schema : Schema) (record : Value) : Value :=
  schema.part id false record

/-- A record where a blank stands for every value that a declared field takes as a whole. -/
def undeclaredPart (schema : Schema) (record : Value) : Value :=
  schema.part (fun _ => .undefined) true record

theorem map_declaredPart_coerce (schema : Schema) (record : Value) :
    (schema.coerce record).map schema.declaredPart = schema.coerce (schema.declaredPart record) :=
  coerce_part_of_fields (fun field _ => field.2.coercesByPart) record

theorem undeclaredPart_of_coerce {schema : Schema} {record w : Value}
    (made : schema.coerce record = .ok w) :
    schema.undeclaredPart w = schema.undeclaredPart record :=
  coerce_within_of_fields (fun field _ => field.2.coercesWithin) made

end Schema

/-- Records with the same declared part are validated alike, and coerced to records with the same
declared part, or refused for the same reason. Coercion leaves undeclared members untouched. -/
theorem undeclared_members_do_not_interfere {schema : Schema} (distinct : schema.WellFormed)
    {record other : Value} (same : schema.declaredPart record = schema.declaredPart other) :
    schema.firstMismatch? [record] = schema.firstMismatch? [other] ∧
    ((∃ e, schema.coerce record = .error e ∧ schema.coerce other = .error e) ∨
      ∃ c d, schema.coerce record = .ok c ∧ schema.coerce other = .ok d ∧
        schema.declaredPart c = schema.declaredPart d ∧
        schema.undeclaredPart c = schema.undeclaredPart record ∧
        schema.undeclaredPart d = schema.undeclaredPart other) := by
  have validated (r : Value) :
      schema.firstMismatch? [r] = schema.firstMismatch? [schema.declaredPart r] :=
    (Schema.firstMismatch?_part distinct r).symm
  refine ⟨by rw [validated, same, ← validated], ?_⟩
  have coerced : (schema.coerce record).map schema.declaredPart =
      (schema.coerce other).map schema.declaredPart := by
    rw [Schema.map_declaredPart_coerce, same, ← Schema.map_declaredPart_coerce]
  cases here : schema.coerce record with
  | error e =>
      rw [here] at coerced
      exact .inl ⟨e, rfl, Fallible.map_eq_error.1 coerced.symm⟩
  | ok c =>
      rw [here] at coerced
      obtain ⟨d, there, alike⟩ := Fallible.map_eq_ok.1 coerced.symm
      exact .inr ⟨c, d, rfl, there, alike.symm, Schema.undeclaredPart_of_coerce here,
        Schema.undeclaredPart_of_coerce there⟩

def ward : Schema :=
  [(⟨"beds", .trailing⟩, .nested [(⟨"free", .required⟩, .primitive .boolean)])]

def wardNoted (notes marks : Record) : Value :=
  .mapping (notes ++ [("beds", .sequence [.mapping (("free", .string "yes") :: marks)])])

/-- A note in the ward and a mark on the bed are not declared. The text in the bed is a mismatch, and
is coerced. -/
theorem undeclared_notes_do_not_interfere :
    ward.WellFormed ∧
    ward.declaredPart (wardNoted [("note", .null)] [("by", .string "night")]) =
      ward.declaredPart (wardNoted [] []) ∧
    ward.firstMismatch? [wardNoted [("note", .null)] [("by", .string "night")]] =
      ward.firstMismatch? [wardNoted [] []] ∧
    ∃ c d, ward.coerce (wardNoted [("note", .null)] [("by", .string "night")]) = .ok c ∧
      ward.coerce (wardNoted [] []) = .ok d ∧ ward.declaredPart c = ward.declaredPart d ∧
      ward.undeclaredPart c =
        ward.undeclaredPart (wardNoted [("note", .null)] [("by", .string "night")]) ∧
      ward.undeclaredPart d = ward.undeclaredPart (wardNoted [] []) := by
  have distinct : ward.WellFormed := by
    refine ⟨List.nodup_singleton _, List.forall_mem_singleton.2 ?_⟩
    exact .nested (List.nodup_singleton _) (List.forall_mem_singleton.2 (.primitive .boolean))
  have same : ward.declaredPart (wardNoted [("note", .null)] [("by", .string "night")]) =
      ward.declaredPart (wardNoted [] []) := rfl
  have made : ∃ c, ward.coerce (wardNoted [] []) = .ok c := ⟨_, rfl⟩
  obtain ⟨alike, ⟨e, -, fails⟩ | coerced⟩ := undeclared_members_do_not_interfere distinct same
  · obtain ⟨c, made⟩ := made
    rw [made] at fails
    cases fails
  · exact ⟨distinct, same, alike, coerced⟩

end RecordSchema
