import RecordSchema.Proofs.FailureChain
import RecordSchema.Proofs.Grammar
import RecordSchema.Proofs.SubRecord

namespace RecordSchema

theorem Value.memberOrFirst_of_get? {key : String} {v found : Value} (h : v.get? key = some found) :
    v.memberOrFirst key = found := by
  unfold memberOrFirst
  rw [h]

theorem Path.join_ne_empty {first : String} (h : first ≠ "") (rest : List String) :
    join (first :: rest) ≠ "" := by
  cases rest with
  | nil => exact h
  | cons second rest =>
      rw [join_cons_cons]
      simp

theorem FieldType.EverySchema.of_nested {p : Schema → Prop} {schema : Schema}
    (h : (FieldType.nested schema).EverySchema p) :
    p schema ∧ ∀ field ∈ schema, field.2.EverySchema p := by
  cases h with
  | leaf leaf => exact absurd rfl (leaf schema)
  | nested here fields => exact ⟨here, fields⟩

namespace Schema

/-- One round of the descent. -/
theorem check_member {schema : Schema} {record : Value} {e : ValidationError} {key : FieldKey}
    {rest : List FieldKey} {members : Record} (fails : schema.check record = .error e)
    (path : e.path = key :: rest) (deeper : rest ≠ [])
    (found : record.get? key.name = some (.mapping members)) :
    ∃ (inner : Schema) (e' : ValidationError), (key, .nested inner) ∈ schema ∧
      inner.check (.mapping members) = .error e' ∧ e.toOffence = e'.toOffence.under key := by
  obtain ⟨⟨key', type⟩, first, rfl⟩ := (check_eq_error_iff record e).1 fails
  obtain ⟨rfl, below⟩ := List.cons.inj path
  dsimp only at below found ⊢
  rw [Value.memberOrFirst_of_get? found] at below ⊢
  -- A path that goes on below a key can only do so in a nested schema.
  obtain ⟨inner, rfl⟩ : ∃ inner : Schema, type = .nested inner := by
    by_contra leaf
    rw [Offence.below_of_not_nested _ (not_exists.1 leaf)] at below
    exact deeper below.symm
  have checked : inner.firstMismatch? (Offence.candidates (.mapping members)) =
      inner.mismatch? (.mapping members) := firstMismatch?_candidates (by simp)
  cases mismatch : inner.mismatch? (.mapping members) with
  | none =>
      rw [Offence.below_of_passing (checked.trans mismatch)] at below
      exact absurd below.symm deeper
  | some field =>
      have rejecting := (mismatch?_eq_some_iff inner _ field).1 mismatch
      rw [Offence.below_of_mismatch (checked.trans mismatch)]
      exact ⟨inner, _, first.mem, (check_eq_error_iff _ _).2 ⟨field, rejecting, rfl⟩, rfl⟩

/-- The rounds through mappings, with the schema resolved on the way. -/
theorem check_below {schema : Schema} {record v : Value} {e : ValidationError}
    {front back : List FieldKey} (named : (FieldType.nested schema).EverySchema UniquelyNamed)
    (fails : schema.check record = .error e) (path : e.path = front ++ back) (deeper : back ≠ [])
    (leads : record.LeadsTo (front.map FieldKey.name) v) :
    ∃ (inner : Schema) (e' : ValidationError),
      schema.descend? (front.map FieldKey.name) = some inner ∧ inner.check v = .error e' ∧
      e'.path = back ∧ e'.expected = e.expected ∧ e'.invalid = e.invalid := by
  induction front generalizing schema record e with
  | nil =>
      cases leads with
      | here members => exact ⟨schema, e, rfl, fails, path, rfl, rfl⟩
  | cons key front ih =>
      cases leads with
      | step found rest =>
          obtain ⟨members, rfl⟩ := rest.start_mapping
          obtain ⟨inner, e', mem, fails', offence⟩ :=
            check_member fails path (by simp [deeper]) found
          obtain ⟨unique, fields⟩ := named.of_nested
          have field := (unique.found key.name (key, .nested inner)).2 ⟨mem, rfl⟩
          -- What is known of the outer error is now known of the inner one, one key shorter.
          rw [offence] at path ⊢
          obtain ⟨-, path⟩ := List.cons.inj path
          obtain ⟨deep, last, resolved, failed, shown⟩ := ih (fields _ mem) fails' path rest
          exact ⟨deep, last, descend?_cons_eq_some_iff.2 ⟨_, inner, field, rfl, resolved⟩, failed,
            shown⟩

end Schema

namespace Factory

/-- A mapping that the path of an error leads through fails at its own place too, with the rest of
the path, the same expected type and the same value. -/
theorem createAt_fails_below {schema : Schema} {record v : Value} {e : ValidationError}
    {front back : List FieldKey}
    (named : (FieldType.nested schema).EverySchema Schema.UniquelyNamed)
    (fails : (ofSchema schema).create record = .error e) (path : e.path = front ++ back)
    (inside : front ≠ []) (deeper : back ≠ []) (dotFree : ∀ key ∈ front, '.' ∉ key.name.toList)
    (leads : record.LeadsTo (front.map FieldKey.name) v) :
    ∃ e', (ofSchema schema).createAt (Path.join (front.map FieldKey.name)) v = .error e' ∧
      e'.path = back ∧ e'.field = Path.join (back.map FieldKey.display) ∧
      e.field = Path.join (front.map FieldKey.display) ++ "." ++ e'.field ∧
      e'.expected = e.expected ∧ e'.invalid = e.invalid := by
  rw [create_eq_error_iff] at fails
  obtain ⟨inner, e', descends, failed, rest, expected, invalid⟩ :=
    Schema.check_below named fails path deeper leads
  have segments : Path.segments (Path.join (front.map FieldKey.name)) = front.map FieldKey.name :=
    Path.segments_join (by simp [inside]) (List.forall_mem_map.2 dotFree)
  have nonempty : Path.join (front.map FieldKey.name) ≠ "" := by
    obtain ⟨unique, -⟩ := named.of_nested
    obtain ⟨first, more, rfl⟩ := List.exists_cons_of_ne_nil inside
    obtain ⟨field, -, found, -⟩ := Schema.descend?_cons_eq_some_iff.1 descends
    obtain ⟨mem, same⟩ := (unique.found _ field).1 found
    exact Path.join_ne_empty (same ▸ unique.named field mem) _
  refine ⟨e', ?_, rest, ?_, ?_, expected, invalid⟩
  · rw [createAt_ofSchema nonempty (by rw [Schema.resolve?, segments, descends]), failed]
    rfl
  · rw [ValidationError.field, rest]
  · rw [ValidationError.field, ValidationError.field, path, rest, List.map_append]
    exact Path.join_append (by simp [inside]) (by simp [deeper])

def shopField : Field :=
  (⟨"shop", .trailing⟩, .nested [paidVisits])

def houseField : Field :=
  (⟨"house", .required⟩, .nested [shopField])

def houseWith (shop : Value) : Value :=
  .mapping [("house", .mapping [("shop", shop)])]

/-- The value shown is that of the first visit, the one rejected that of the second. -/
theorem createAt_shop_fails :
    let visits := visitsPaid [.bool true, .string "no"]
    ∃ e, (ofSchema [houseField]).create (houseWith visits) = .error e ∧
      e.field = "house.shop?.visits.paid" ∧
      ∃ e', (ofSchema [houseField]).createAt "house.shop" visits = .error e' ∧
        e'.field = "visits.paid" ∧ e'.expected = e.expected ∧ e'.invalid = e.invalid := by
  intro visits
  have named : (FieldType.nested [houseField]).EverySchema Schema.UniquelyNamed := by
    have compiled : Schema.ofJson .empty (.object [("house", .object [("shop?", .object
        [("visits", .object [("paid", .string "Boolean")])])])]) = .ok [houseField] := rfl
    exact (Schema.shape_of_ofJson compiled).2
  -- The descent from the inside out: each nested schema adds the key of its first mismatch.
  have atPaid : Offence.below paid.2 (.bool true) = ⟨[], paid.2, .bool true⟩ :=
    Offence.below_of_not_nested _ (by simp [paid])
  have atVisits : Offence.below paidVisits.2 (visits.memberOrFirst "visits") =
      ⟨[paid.1], paid.2, .bool true⟩ :=
    (Offence.below_of_mismatch rfl).trans (congrArg (Offence.under paid.1) atPaid)
  have atShop : Offence.below shopField.2 visits =
      ⟨[paidVisits.1, paid.1], paid.2, .bool true⟩ :=
    (Offence.below_of_mismatch rfl).trans (congrArg (Offence.under paidVisits.1) atVisits)
  have atHouse : Offence.below houseField.2 ((houseWith visits).memberOrFirst "house") =
      ⟨[shopField.1, paidVisits.1, paid.1], paid.2, .bool true⟩ :=
    (Offence.below_of_mismatch rfl).trans (congrArg (Offence.under shopField.1) atShop)
  have fails : (ofSchema [houseField]).create (houseWith visits) =
      .error ⟨⟨[houseField.1, shopField.1] ++ [paidVisits.1, paid.1], paid.2, .bool true⟩,
        houseWith visits, [houseField]⟩ := by
    rw [create_eq_error_iff, Schema.check_eq_error_iff]
    refine ⟨houseField, (Schema.mismatch?_eq_some_iff _ _ _).1 rfl, ?_⟩
    have shown : Offence.below houseField.2
        ((houseWith visits).memberOrFirst houseField.1.name) = _ := atHouse
    rw [shown]
    rfl
  have leads : (houseWith visits).LeadsTo ["house", "shop"] visits :=
    .step rfl (.step rfl (.here _))
  obtain ⟨e', failed, -, field, -, shown⟩ :=
    createAt_fails_below named fails rfl (by simp) (by simp) (by decide) leads
  exact ⟨_, fails, rfl, e', failed, field, shown⟩

end Factory

end RecordSchema
