import Mathlib.Data.List.Induction
import RecordSchema.Proofs.Flattening

namespace RecordSchema

namespace Members

variable {α : Type}

theorem ofList_concat (written : List (String × α)) (m : String × α) :
    ofList (written ++ [m]) = insert m.1 m.2 (ofList written) :=
  insertAll_append [] written [m]

theorem names_ofList (written : List (String × α)) :
    names (ofList written) = (names written).eraseDups := by
  -- From the end, since the member that is written last is the last to be inserted.
  induction written using List.reverseRecOn with
  | nil => rfl
  | append_singleton written m ih =>
      have listed : names (written ++ [m]) = names written ++ [m.1] := List.map_append
      rw [ofList_concat, names_insert, ih, listed, List.eraseDups_append]
      by_cases again : m.1 ∈ names written
      · simp [List.mem_eraseDups, List.removeAll, again]
      · simp [List.mem_eraseDups, List.removeAll, again, List.eraseDups_cons]

theorem lookup_ofList (written : List (String × α)) (key : String) :
    (ofList written).lookup key = written.reverse.lookup key := by
  induction written using List.reverseRecOn with
  | nil => rfl
  | append_singleton written m ih =>
      rw [ofList_concat, lookup_insert, List.reverse_concat, List.lookup_cons, ih]
      by_cases here : key = m.1
      · rw [if_pos here, beq_iff_eq.2 here]
      · rw [if_neg here, beq_eq_false_iff_ne.2 here]

/-- What is kept of a name is what was written to it last. -/
theorem mem_ofList_iff (written : List (String × α)) (key : String) (a : α) :
    (key, a) ∈ ofList written ↔
      ∃ before after, written = before ++ (key, a) :: after ∧ key ∉ names after := by
  rw [← lookup_eq_some_iff (nodup_ofList written), lookup_ofList, List.lookup_eq_some_iff]
  constructor
  · rintro ⟨after, before, listed, others⟩
    refine ⟨before.reverse, after.reverse, ?_, ?_⟩
    · rw [← List.reverse_reverse written, listed]
      simp
    · intro again
      obtain ⟨m, mem, rfl⟩ := List.mem_map.1 again
      simpa using others m (List.mem_reverse.1 mem)
  · rintro ⟨before, after, rfl, fresh⟩
    refine ⟨after.reverse, before.reverse, by simp, fun m mem => ?_⟩
    rw [bne_iff_ne]
    rintro rfl
    exact fresh (List.mem_map.2 ⟨m, List.mem_reverse.1 mem, rfl⟩)

theorem map_insert {f : String → String} (injective : Function.Injective f) (name : String)
    (content : α) (members : List (String × α)) :
    (insert name content members).map (fun m => (f m.1, m.2)) =
      insert (f name) content (members.map fun m => (f m.1, m.2)) := by
  induction members with
  | nil => rfl
  | cons m r ih =>
      rw [insert, List.map_cons, insert]
      by_cases here : m.1 = name
      · rw [if_pos here, if_pos (congrArg f here), List.map_cons]
      · rw [if_neg here, if_neg (injective.ne here), List.map_cons, ih]

/-- Names that are told apart as before keep their places. -/
theorem map_ofList {f : String → String} (injective : Function.Injective f)
    (written : List (String × α)) :
    (ofList written).map (fun m => (f m.1, m.2)) = ofList (written.map fun m => (f m.1, m.2)) := by
  induction written using List.reverseRecOn with
  | nil => rfl
  | append_singleton written m ih =>
      rw [ofList_concat, map_insert injective, ih, List.map_append, List.map_singleton,
        ofList_concat]

end Members

namespace Value

/-- The key of a leaf by the names that lead to it. A start goes before them with a dot, unless it is
empty. -/
def leafKey (start : Option String) (path : List String) : String :=
  match start with
  | none => Path.join path
  | some start => if start = "" then Path.join path else start ++ "." ++ Path.join path

theorem leafKey_eq_extend (base : Option String) (path : List String) :
    leafKey base path = Path.extend (Path.base? base) (Path.join path) := by
  cases base with
  | none => rfl
  | some start =>
      by_cases empty : start = ""
      · rw [leafKey, if_pos empty, empty]
        rfl
      · rw [leafKey, if_neg empty, Path.base?_of_nonempty empty, Path.extend]

def leavesAt (base : Option String) (v : Value) : Record :=
  v.leaves.map fun l => (leafKey base l.1, l.2)

theorem map_flatEntry_leaves (base : Option String) (v : Value) :
    v.leaves.map (flatEntry (Path.base? base)) = v.leavesAt base := by
  refine List.map_congr_left fun l mem => ?_
  have leafAt := (mem_leaves_iff v l.1 l.2).1 mem
  refine Prod.ext ?_ rfl
  rw [leafKey_eq_extend, ← Path.join_base _ leafAt.path_ne_nil]
  rfl

theorem flatten_eq_leavesAt (base : Option String) (v : Value) :
    v.flatten base = Members.ofList (v.leavesAt base) := by
  rw [flatten_eq_ofList, map_flatEntry_leaves]

theorem leafAt_of_mem_flatten {base : Option String} {v leaf : Value} {key : String}
    (mem : (key, leaf) ∈ v.flatten base) :
    ∃ path, v.LeafAt path leaf ∧ key = leafKey base path := by
  rw [flatten_eq_leavesAt, Members.mem_ofList_iff] at mem
  obtain ⟨before, after, listed, -⟩ := mem
  have from_leaf : (key, leaf) ∈ v.leavesAt base := listed ▸ List.mem_append_right _ (.head _)
  obtain ⟨l, from_l, same⟩ := List.mem_map.1 from_leaf
  obtain ⟨rfl, rfl⟩ := Prod.mk.inj same
  exact ⟨l.1, (mem_leaves_iff v l.1 l.2).1 from_l, rfl⟩

theorem exists_leafAt_of_mem_flatten {base : Option String} {v leaf : Value} {key : String}
    (mem : (key, leaf) ∈ v.flatten base) : ∃ path, v.LeafAt path leaf := by
  obtain ⟨path, leafAt, -⟩ := leafAt_of_mem_flatten mem
  exact ⟨path, leafAt⟩

theorem WellFormed.flatten {v : Value} (distinct : v.WellFormed) (base : Option String) :
    (mapping (v.flatten base)).WellFormed := by
  refine (wellFormed_mapping_iff _).2 ⟨nodup_names_flatten base v, fun entry mem => ?_⟩
  obtain ⟨path, leafAt⟩ := exists_leafAt_of_mem_flatten mem
  exact leafAt.wellFormed distinct

/-- The keys of the flat view are the paths of the leaves, each where it occurs first, and the entry
of a key is the leaf where it occurs last. No entry is a container. -/
theorem flat_view_keeps_last_leaf (base : Option String) (v : Value) :
    Members.names (v.flatten base) = (Members.names (v.leavesAt base)).eraseDups ∧
    (∀ key leaf, (key, leaf) ∈ v.flatten base ↔ ∃ before after,
      v.leavesAt base = before ++ (key, leaf) :: after ∧ key ∉ Members.names after) ∧
    ∀ entry ∈ v.flatten base, entry.2.isContainer = false := by
  refine ⟨?_, fun key leaf => ?_, fun entry mem => ?_⟩
  · rw [flatten_eq_leavesAt, Members.names_ofList]
  · rw [flatten_eq_leavesAt, Members.mem_ofList_iff]
  · obtain ⟨path, leafAt⟩ := exists_leafAt_of_mem_flatten mem
    exact leafAt.leaf_not_container

def dotted : Value :=
  .mapping [("a.0", .bool true), ("a", .sequence [.bool false]), ("", .mapping [("", .null)])]

theorem last_leaf_of_dotted :
    Members.names (dotted.flatten (some "r")) =
      (Members.names (dotted.leavesAt (some "r"))).eraseDups ∧
    (∃ before after, dotted.leavesAt (some "r") = before ++ ("r.a.0", .bool false) :: after ∧
      "r.a.0" ∉ Members.names after) ∧
    ("r.a.0", .bool false) ∈ dotted.flatten (some "r") ∧ (bool false).isContainer = false ∧
    -- An empty start leaves the keys as they are without one.
    dotted.leavesAt (some "") = [("a.0", .bool true), ("a.0", .bool false), (".", .null)] ∧
    Members.names (dotted.flatten (some "")) = ["a.0", "."] ∧
    ("a.0", .bool false) ∈ dotted.flatten (some "") := by
  have kept : ("r.a.0", bool false) ∈ dotted.flatten (some "r") := .head _
  have listed : dotted.leavesAt (some "") =
      [("a.0", .bool true), ("a.0", .bool false), (".", .null)] := rfl
  obtain ⟨names, entries, leaves⟩ := flat_view_keeps_last_leaf (some "r") dotted
  obtain ⟨names_bare, entries_bare, -⟩ := flat_view_keeps_last_leaf (some "") dotted
  rw [listed] at names_bare entries_bare
  refine ⟨names, (entries _ _).1 kept, kept, leaves _ kept, listed, names_bare, ?_⟩
  exact (entries_bare _ _).2 ⟨[("a.0", .bool true)], [(".", .null)], rfl, by decide⟩

def entryAt (path : String) (entry : String × Value) : String × Value :=
  (path ++ "." ++ entry.1, entry.2)

theorem entryAt_entryAt (outer inner : String) (entry : String × Value) :
    entryAt outer (entryAt inner entry) = entryAt (outer ++ "." ++ inner) entry := by
  simp only [entryAt, String.append_assoc]

theorem leavesAt_base (base : Option String) (v : Value) :
    v.leavesAt base =
      (v.leavesAt none).map fun entry => (Path.extend (Path.base? base) entry.1, entry.2) := by
  rw [leavesAt, leavesAt, List.map_map]
  exact List.map_congr_left fun l _ => Prod.ext (leafKey_eq_extend base l.1) rfl

/-- Where a value stands decides what is put before its keys, and nothing else. -/
theorem flatten_base (base : Option String) (v : Value) :
    v.flatten base =
      (v.flatten none).map fun entry => (Path.extend (Path.base? base) entry.1, entry.2) := by
  rw [flatten_eq_leavesAt, flatten_eq_leavesAt, leavesAt_base,
    Members.map_ofList (Path.extend_injective _)]

theorem flatten_at (v : Value) {path : String} (nonempty : path ≠ "") :
    v.flatten (some path) = (v.flatten none).map (entryAt path) := by
  rw [flatten_base, Path.base?_of_nonempty nonempty]
  rfl

/-- A path that a record stands at is put before every key, and entries keep their number, order and
values; so a longer path adds only what it is longer by. -/
theorem flat_keys_renamed (v : Value) {path : String} (nonempty : path ≠ "") :
    v.flatten (some path) = (v.flatten none).map (entryAt path) ∧
    ∀ inner, inner ≠ "" → v.flatten (some (path ++ "." ++ inner)) =
      (v.flatten (some inner)).map (entryAt path) := by
  refine ⟨flatten_at v nonempty, fun inner nonempty_inner => ?_⟩
  have nonempty_whole : path ++ "." ++ inner ≠ "" := by
    simp [String.append_eq_empty_iff]
  rw [flatten_at v nonempty_whole, flatten_at v nonempty_inner, List.map_map]
  refine List.map_congr_left fun entry _ => ?_
  exact (entryAt_entryAt path inner entry).symm

theorem dotted_keys_renamed :
    dotted.flatten (some "r.") = (dotted.flatten none).map (entryAt "r.") ∧
    dotted.flatten (some "r.") = [("r..a.0", .bool false), ("r...", .null)] ∧
    dotted.flatten (some ("r." ++ "." ++ "s")) = (dotted.flatten (some "s")).map (entryAt "r.") := by
  have nonempty : "r." ≠ "" := by decide
  obtain ⟨whole, longer⟩ := flat_keys_renamed dotted nonempty
  exact ⟨whole, rfl, longer "s" (by decide)⟩

end Value

end RecordSchema
