import RecordSchema.Proofs.Reflattening
import RecordSchema.Proofs.SubRecord

namespace RecordSchema

theorem Path.eq_singleton_of_join {path : List String} (nonempty : path ≠ [])
    (dotFree : '.' ∉ (join path).toList) : path = [join path] := by
  rcases path with _ | ⟨first, _ | ⟨second, rest⟩⟩
  · exact absurd rfl nonempty
  · rfl
  · rw [join_cons_cons] at dotFree
    simp at dotFree

theorem Value.eq_singleton_of_leafKey {base : Option String} {path : List String}
    (nonempty : path ≠ []) (dotFree : '.' ∉ (leafKey base path).toList) :
    path = [leafKey base path] := by
  cases base with
  | none => exact Path.eq_singleton_of_join nonempty dotFree
  | some start =>
      by_cases empty : start = ""
      · rw [leafKey, if_pos empty] at dotFree ⊢
        exact Path.eq_singleton_of_join nonempty dotFree
      · rw [leafKey, if_neg empty] at dotFree
        simp at dotFree

theorem Value.get?_of_mem_flatten {base : Option String} {v leaf : Value} {key : String}
    (distinct : v.WellFormed) (mem : (key, leaf) ∈ v.flatten base) (dotFree : '.' ∉ key.toList) :
    v.get? key = some leaf := by
  obtain ⟨path, leafAt, rfl⟩ := leafAt_of_mem_flatten mem
  -- Several names are joined by dots, so the path is this key alone, and nothing goes before it.
  rw [eq_singleton_of_leafKey leafAt.path_ne_nil dotFree] at leafAt
  cases leafAt with
  | here mem => exact (get?_eq_some_iff distinct _ leaf).2 mem
  | deeper _ rest => exact absurd rfl rest.path_ne_nil

namespace Container

theorem get?_of_leaf {c : Container} {key : String} {leaf : Value}
    (absent : c.record.get? key = none) (entry : c.flat.lookup key = some leaf) :
    c.get? key = some leaf := by
  rw [get?, absent, entry]

/-- Lookup finds the leaf of a flat key, unless the key has a dot and names a member too. A flat key
without a dot names a member, and the member is its leaf. -/
theorem get?_finds_leaf {factory : Factory} {base : Option String} {record : Value} {c : Container}
    (distinct : record.WellFormed) (made : factory.wrap base record = .ok c) {key : String}
    {leaf : Value} (entry : c.flat.lookup key = some leaf) :
    (¬('.' ∈ key.toList ∧ c.hasMember key = true) → c.get? key = some leaf) ∧
    ('.' ∉ key.toList → record.get? key = some leaf) := by
  obtain rfl := Factory.eq_of_wrap made
  have listed := (Members.lookup_eq_some_iff (record.flat_flatten base).distinct key leaf).1 entry
  constructor
  · intro unshadowed
    by_cases dotted : '.' ∈ key.toList
    · refine get?_of_leaf ?_ entry
      rw [← Option.not_isSome_iff_eq_none]
      exact fun member => unshadowed ⟨dotted, member⟩
    · exact get?_of_member (Value.get?_of_mem_flatten distinct listed dotted)
  · exact Value.get?_of_mem_flatten distinct listed

def furniture : Value :=
  .mapping [("0", .string "bed"), ("room.lamp", .bool true),
    ("room", .mapping [("lamp", .bool false), ("", .sequence [.null])])]

theorem get?_in_furniture :
    furniture.WellFormed ∧ ∃ c, (Factory.mk none).create furniture = .ok c ∧
      c.flat.lookup "0" = some (.string "bed") ∧ c.get? "0" = some (.string "bed") ∧
      furniture.get? "0" = some (.string "bed") ∧
      c.flat.lookup "room..0" = some .null ∧ c.get? "room..0" = some .null := by
  have distinct : furniture.WellFormed := by
    simp [furniture, Value.WellFormed, Value.WellFormedMembers, Value.WellFormedItems,
      Members.names]
  let c : Container := ⟨furniture, none, none, none, furniture.flatten none⟩
  have made : (Factory.mk none).wrap none furniture = .ok c := rfl
  have bed : c.flat.lookup "0" = some (.string "bed") := rfl
  have null : c.flat.lookup "room..0" = some .null := rfl
  obtain ⟨found, member⟩ := get?_finds_leaf distinct made bed
  refine ⟨distinct, c, made, bed, found (by decide), member (by decide), null, ?_⟩
  exact (get?_finds_leaf distinct made null).1 (by decide)

/-- A member whose name has a dot is found in place of the leaf whose key it is. -/
example : ((Factory.mk none).create furniture).map
    (fun c => (c.get? "room.lamp", c.flat.lookup "room.lamp")) =
      .ok (some (.bool true), some (.bool false)) :=
  rfl

theorem get?_of_absent_leaf {c : Container} {key : String} (absent : c.record.get? key = none)
    (no_leaf : c.flat.lookup key = none) :
    c.get? key = (nonempty? (c.entriesBelow key)).map Value.mapping := by
  rw [get?, absent, no_leaf, nonempty?]
  cases c.entriesBelow key <;> rfl

theorem includes_iff_below (c : Container) (key : String) :
    c.includes (key ++ ".") = true ↔ c.entriesBelow key ≠ [] := by
  rw [Ne, ← List.map_eq_nil_iff, ← filter_startsWith, List.filter_eq_nil_iff, includes, keys,
    Members.names, List.any_map, List.any_eq_true]
  simp

theorem getFlat?_below (c : Container) (key : String) :
    c.getFlat? [key ++ "."] = nonempty? ((c.entriesBelow key).map (Value.entryAt key)) := by
  rw [← filter_startsWith, getFlat?]
  simp

/-- Keys that go on beyond the same start differ in what follows it. -/
theorem flat_entriesBelow {c : Container} (flat : Flat c.flat) (key : String) :
    Flat (c.entriesBelow key) := by
  have slice := c.filter_startsWith key
  constructor
  · have distinct : (Members.names ((c.entriesBelow key).map (Value.entryAt key))).Nodup := by
      rw [← slice]
      exact flat.distinct.sublist (List.filter_sublist.map Prod.fst)
    rw [Members.names, List.map_map] at distinct
    exact List.Nodup.of_map (fun rest => key ++ "." ++ rest) (by rwa [Members.names, List.map_map])
  · intro entry mem
    have listed : Value.entryAt key entry ∈ c.flat := by
      apply List.mem_of_mem_filter
      rw [slice]
      exact List.mem_map_of_mem mem
    exact flat.leaves (Value.entryAt key entry) listed

/-- A key that is neither a member nor a leaf finds a mapping if some flat key goes on beyond it.
Flattened at the key, this mapping is the part of the flat view below the key again, entry by
entry. -/
theorem get?_rebuilds_slice {factory : Factory} {base : Option String} {record : Value}
    {c : Container} (made : factory.wrap base record = .ok c) {key : String} (nonempty : key ≠ "")
    (no_member : c.hasMember key = false) (no_leaf : c.has key = false) :
    ((∃ v, c.get? key = some v) ↔ c.includes (key ++ ".") = true) ∧
    ∀ v, c.get? key = some v → ∃ found, v = .mapping found ∧ (Members.names found).Nodup ∧
      v.flatten (some key) = found.map (Value.entryAt key) ∧
      c.getFlat? [key ++ "."] = some (v.flatten (some key)) := by
  have flat : Flat c.flat := by
    rw [Factory.eq_of_wrap made]
    exact record.flat_flatten base
  have shown : c.get? key = (nonempty? (c.entriesBelow key)).map Value.mapping := by
    apply get?_of_absent_leaf
    · rwa [hasMember, Option.isSome_eq_false_iff, Option.isNone_iff_eq_none] at no_member
    · rwa [has, Option.isSome_eq_false_iff, Option.isNone_iff_eq_none] at no_leaf
  have below := flat_entriesBelow flat key
  have again : (Value.mapping (c.entriesBelow key)).flatten (some key) =
      (c.entriesBelow key).map (Value.entryAt key) := by
    rw [Value.flatten_at _ nonempty, below.flatten_eq]
  rw [includes_iff_below, getFlat?_below, shown]
  cases entries : c.entriesBelow key with
  | nil => simp [nonempty?]
  | cons entry rest =>
      rw [entries] at below again
      refine ⟨iff_of_true ⟨_, rfl⟩ (List.cons_ne_nil entry rest), ?_⟩
      intro v found
      obtain rfl := Option.some.inj found
      refine ⟨entry :: rest, rfl, below.distinct, again, ?_⟩
      rw [again]
      rfl

theorem get?_rebuilds_room :
    ∃ c, (Factory.mk none).createAt "at" furniture = .ok c ∧ c.hasMember "at.room" = false ∧
      c.has "at.room" = false ∧ c.includes ("at.room" ++ ".") = true ∧
      ∃ found, c.get? "at.room" = some (.mapping found) ∧
        found = [("lamp", .bool false), (".0", .null)] ∧
        c.getFlat? ["at.room" ++ "."] = some ((Value.mapping found).flatten (some "at.room")) := by
  let c : Container := ⟨furniture, none, none, some "at", furniture.flatten (some "at")⟩
  have made : (Factory.mk none).wrap (some "at") furniture = .ok c := rfl
  have found : c.get? "at.room" = some (.mapping [("lamp", .bool false), (".0", .null)]) := rfl
  obtain ⟨included, slice⟩ := get?_rebuilds_slice made (show "at.room" ≠ "" by decide) rfl rfl
  obtain ⟨_, -, -, -, same⟩ := slice _ found
  exact ⟨c, made, rfl, rfl, included.1 ⟨_, found⟩, _, found, rfl, same⟩

end Container

end RecordSchema
