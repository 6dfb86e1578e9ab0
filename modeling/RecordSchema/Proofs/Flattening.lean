import RecordSchema.Proofs.Leaves

namespace RecordSchema.Value

theorem flattenItems_eq_entries (base : Option String) (start : Nat) (flat : Record)
    (items : List Value) :
    flattenItems base start flat items = flattenMembers base flat (entriesFrom start items) := by
  induction items generalizing start flat with
  | nil => rfl
  | cons v r ih => rw [flattenItems, ih, entriesFrom, flattenMembers]

theorem flattenAt_of_isContainer {v : Value} (h : v.isContainer = true) (path : String)
    (flat : Record) : flattenAt path flat v = flattenMembers (some path) flat v.entries := by
  cases v with
  | sequence items => exact flattenItems_eq_entries (some path) 0 flat items
  | mapping members => rfl
  | _ => cases h

theorem flattenAt_of_leaf {v : Value} (h : v.isContainer = false) (path : String) (flat : Record) :
    flattenAt path flat v = Members.insert path v flat := by
  cases v with
  | sequence | mapping => cases h
  | _ => rfl

theorem flatten_eq_entries (base : Option String) (v : Value) :
    v.flatten base = flattenMembers (Path.base? base) [] v.entries := by
  cases v with
  | sequence items => exact flattenItems_eq_entries _ 0 [] items
  | _ => rfl

def flatEntry (base : Option String) (l : List String × Value) : String × Value :=
  (Path.join (base.toList ++ l.1), l.2)

theorem map_flatEntry_under (base : Option String) (key : String)
    (inside : List (List String × Value)) :
    (inside.map fun l => (key :: l.1, l.2)).map (flatEntry base) =
      inside.map (flatEntry (some (Path.extend base key))) := by
  rw [List.map_map]
  refine List.map_congr_left fun l _ => ?_
  exact Prod.ext (Path.join_extend base key l.1).symm rfl

theorem flatEntry_single (base : Option String) (key : String) (v : Value) :
    flatEntry base ([key], v) = (Path.extend base key, v) :=
  Prod.ext (Path.join_extend base key []).symm rfl

theorem flattenMembers_of_each (base : Option String) (flat members : Record)
    (each : ∀ m ∈ members, ∀ flat, flattenAt (Path.extend base m.1) flat m.2 =
      Members.insertAll flat ((hang m.1 m.2 m.2.leaves).map (flatEntry base))) :
    flattenMembers base flat members = Members.insertAll flat
      ((members.flatMap fun m => hang m.1 m.2 m.2.leaves).map (flatEntry base)) := by
  induction members generalizing flat with
  | nil => rfl
  | cons m r ih =>
      obtain ⟨first, rest⟩ := List.forall_mem_cons.1 each
      rw [flattenMembers, first, ih _ rest, List.flatMap_cons, List.map_append,
        Members.insertAll_append]

/-- Flattening writes the leaves one after the other, whatever was written before. -/
theorem flattenMembers_eq_insertAll (v : Value) (base : Option String) (flat : Record) :
    flattenMembers base flat v.entries = Members.insertAll flat (v.leaves.map (flatEntry base)) := by
  induction v using induction_entries generalizing base flat with
  | step v ih =>
      rw [leaves_eq_flatMap]
      refine flattenMembers_of_each base flat v.entries fun m mem flat => ?_
      rw [hang]
      cases container : m.2.isContainer with
      | true => rw [if_pos rfl, flattenAt_of_isContainer container, ih m mem, map_flatEntry_under]
      | false =>
          rw [if_neg Bool.false_ne_true, flattenAt_of_leaf container, List.map_singleton,
            flatEntry_single]
          rfl

theorem flatten_eq_ofList (base : Option String) (v : Value) :
    v.flatten base = Members.ofList (v.leaves.map (flatEntry (Path.base? base))) := by
  rw [flatten_eq_entries, flattenMembers_eq_insertAll]
  rfl

theorem nodup_names_flatten (base : Option String) (v : Value) :
    (Members.names (v.flatten base)).Nodup := by
  rw [flatten_eq_ofList]
  exact Members.nodup_ofList _

theorem nodup_joined_leafPaths {v : Value} (distinct : v.WellFormed) (dotFree : v.DotFree) :
    (v.leaves.map fun l => Path.join l.1).Nodup := by
  have back (path : List String) (mem : path ∈ v.leaves.map Prod.fst) :
      Path.segments (Path.join path) = path := by
    obtain ⟨⟨_, leaf⟩, from_l, rfl⟩ := List.mem_map.1 mem
    exact ((mem_leaves_iff v _ leaf).1 from_l).segments_join dotFree
  have joined : ((v.leaves.map Prod.fst).map Path.join).Nodup := by
    refine (nodup_leafPaths distinct).map_on fun p hp q hq same => ?_
    rw [← back p hp, ← back q hq, same]
  rwa [List.map_map] at joined

/-- Without dots in names no entry overwrites another. -/
theorem flatten_eq_map_leaves {v : Value} (distinct : v.WellFormed) (dotFree : v.DotFree) :
    v.flatten none = v.leaves.map fun l => (Path.join l.1, l.2) := by
  have fresh : (Members.names ([] ++ v.leaves.map (flatEntry none))).Nodup := by
    have joined := nodup_joined_leafPaths distinct dotFree
    simpa [Members.names, flatEntry, Function.comp_def] using joined
  rw [flatten_eq_ofList, Members.ofList]
  exact Members.insertAll_of_nodup fresh

/-- Without dots in names the flat view has one entry for each leaf, in the order of the walk; its
key is the joined path of the leaf, and following the key leads back to the leaf. -/
theorem flat_view_lists_leaves {v : Value} (distinct : v.WellFormed) (dotFree : v.DotFree) :
    v.flatten none = v.leaves.map (fun l => (Path.join l.1, l.2)) ∧
    (∀ path leaf, (path, leaf) ∈ v.leaves ↔ v.LeafAt path leaf) ∧
    (v.leaves.Pairwise fun a b => v.Precedes a.1 b.1) ∧
    (v.leaves.map Prod.fst).Nodup ∧
    (Members.names (v.flatten none)).Nodup ∧
    ∀ entry ∈ v.flatten none,
      v.descend? (Path.segments entry.1) = some entry.2 ∧ entry.2.isContainer = false := by
  have entries := flatten_eq_map_leaves distinct dotFree
  refine ⟨entries, mem_leaves_iff v, pairwise_precedes_leaves v, nodup_leafPaths distinct, ?_, ?_⟩
  · have joined := nodup_joined_leafPaths distinct dotFree
    rw [entries, Members.names, List.map_map]
    exact joined
  · intro entry mem
    rw [entries] at mem
    obtain ⟨l, from_l, rfl⟩ := List.mem_map.1 mem
    have leaf := (mem_leaves_iff v l.1 l.2).1 from_l
    rw [leaf.segments_join dotFree]
    exact leaf.descend?_eq distinct

def untidy : Value :=
  .mapping [("", .mapping [("", .bool true), ("0", .null)]),
    ("0", .sequence [.sequence [], .sequence [.null]]), ("1", .mapping [])]

theorem flat_view_of_untidy :
    untidy.WellFormed ∧ untidy.DotFree ∧
    untidy.flatten none = [(".", .bool true), (".0", .null), ("0.1.0", .null)] ∧
    ∀ entry ∈ untidy.flatten none,
      untidy.descend? (Path.segments entry.1) = some entry.2 ∧ entry.2.isContainer = false := by
  have distinct : untidy.WellFormed := by
    simp [untidy, WellFormed, WellFormedItems, WellFormedMembers, Members.names]
  have dotFree : untidy.DotFree := by
    have null : Value.null.DotFree := .leaf rfl
    have none : (sequence []).DotFree := .sequence (by simp)
    have first : (mapping [("", .bool true), ("0", .null)]).DotFree := by
      refine .mapping (by decide) (List.forall_mem_cons.2 ⟨.leaf rfl, ?_⟩)
      exact List.forall_mem_singleton.2 null
    have second : (sequence [.sequence [], .sequence [.null]]).DotFree := by
      refine .sequence (List.forall_mem_cons.2 ⟨none, List.forall_mem_singleton.2 ?_⟩)
      exact .sequence (List.forall_mem_singleton.2 null)
    have third : (mapping []).DotFree := .mapping (by simp [Members.names]) (by simp)
    refine .mapping (by decide) (List.forall_mem_cons.2 ⟨first, List.forall_mem_cons.2 ⟨second, ?_⟩⟩)
    exact List.forall_mem_singleton.2 third
  exact ⟨distinct, dotFree, rfl, (flat_view_lists_leaves distinct dotFree).2.2.2.2.2⟩

end RecordSchema.Value
