import RecordSchema.Container.Query
import RecordSchema.Proofs.Flattening

namespace RecordSchema

namespace Path

def beyond? : List String → List String → Option (List String)
  | [], [] => none
  | [], key :: rest => some (key :: rest)
  | _ :: _, [] => none
  | a :: start, b :: path => if a = b then beyond? start path else none

theorem beyond?_eq_some_iff (start path rest : List String) :
    beyond? start path = some rest ↔ path = start ++ rest ∧ rest ≠ [] := by
  induction start generalizing path with
  | nil =>
      cases path with
      | nil =>
          rw [beyond?, List.nil_append]
          refine iff_of_false (by simp) ?_
          rintro ⟨empty, nonempty⟩
          exact nonempty empty.symm
      | cons key path =>
          rw [beyond?, List.nil_append, Option.some_inj]
          refine ⟨?_, And.left⟩
          rintro rfl
          exact ⟨rfl, List.cons_ne_nil _ _⟩
  | cons a start ih =>
      cases path with
      | nil => simp [beyond?]
      | cons b path =>
          by_cases same : a = b
          · subst same
            simp [beyond?, ih]
          · simp [beyond?, same, Ne.symm same]

end Path

namespace Value

def beyond? (start : List String) (l : List String × Value) : Option (List String × Value) :=
  (Path.beyond? start l.1).map fun rest => (rest, l.2)

theorem filterMap_beyond?_hang (key : String) (path : List String) (m : String × Value) :
    (hang m.1 m.2 m.2.leaves).filterMap (beyond? (key :: path)) =
      if m.1 = key then m.2.leaves.filterMap (beyond? path) else [] := by
  obtain ⟨k, v⟩ := m
  have step (rest : List String) (leaf : Value) :
      beyond? (key :: path) (k :: rest, leaf) =
        if k = key then beyond? path (rest, leaf) else none := by
    by_cases same : k = key
    · simp [beyond?, Path.beyond?, same]
    · simp [beyond?, Path.beyond?, same, Ne.symm same]
  cases container : v.isContainer with
  | true =>
      rw [hang, container, if_pos rfl, List.filterMap_map]
      by_cases same : k = key
      · rw [if_pos same]
        refine List.filterMap_congr fun l _ => ?_
        rw [Function.comp_apply, step, if_pos same]
      · simp [step, same]
  | false =>
      -- A leaf stands at the path of its own key, which goes on beyond no start with that key.
      have alone : beyond? path ([], v) = none := by
        cases path <;> rfl
      simp [hang, container, step, alone, leaves_of_not_container container]

/-- The leaves whose paths go on beyond `path` are those of the value that `path` leads to. -/
theorem leaves_beyond {v : Value} (distinct : v.WellFormed) (path : List String) :
    v.leaves.filterMap (beyond? path) = ((v.descend? path).map leaves).getD [] := by
  induction path generalizing v with
  | nil =>
      have each : ∀ l ∈ v.leaves, beyond? [] l = some l := by
        rintro ⟨path, leaf⟩ mem
        have leafAt := (mem_leaves_iff v path leaf).1 mem
        cases leafAt with
        | here | deeper => rfl
      rw [List.filterMap_congr each, List.filterMap_some]
      rfl
  | cons key path ih =>
      have named : v.leaves.filterMap (beyond? (key :: path)) =
          ((v.get? key).map fun w => w.leaves.filterMap (beyond? path)).getD [] := by
        rw [leaves_eq_flatMap, List.filterMap_flatMap, get?_eq_lookup_entries distinct,
          ← Members.flatMap_named _ distinct.nodup_names]
        simp only [filterMap_beyond?_hang]
      rw [named, descend?]
      cases found : v.get? key with
      | none => rfl
      | some w =>
          have inner := distinct.of_mem_entries ((get?_eq_some_iff distinct key w).1 found)
          exact ih inner

theorem lookup_flatten {v : Value} (distinct : v.WellFormed) (dotFree : v.DotFree) (key : String) :
    (v.flatten none).lookup key =
      (v.descend? (Path.segments key)).filter fun w => !w.isContainer := by
  ext leaf
  have view := flatten_eq_map_leaves distinct dotFree
  rw [Members.lookup_eq_some_iff (nodup_names_flatten none v), view, Option.filter_eq_some_iff,
    Bool.not_eq_true']
  constructor
  · intro mem
    obtain ⟨⟨path, w⟩, from_l, same⟩ := List.mem_map.1 mem
    obtain ⟨rfl, rfl⟩ := Prod.mk.inj same
    have leafAt := (mem_leaves_iff v path w).1 from_l
    rw [leafAt.segments_join dotFree]
    exact leafAt.descend?_eq distinct
  · rintro ⟨found, other⟩
    have leafAt := (leafAt_iff distinct _).2 ⟨Path.segments_ne_nil key, found, other⟩
    refine List.mem_map.2 ⟨(Path.segments key, leaf), (mem_leaves_iff v _ leaf).2 leafAt, ?_⟩
    rw [Path.join_segments]

theorem get?_of_dotted {v : Value} (distinct : v.WellFormed) (dotFree : v.DotFree) {key : String}
    (dotted : '.' ∈ key.toList) : v.get? key = none := by
  cases found : v.get? key with
  | none => rfl
  | some w =>
      have mem := (get?_eq_some_iff distinct key w).1 found
      exact absurd dotted (dotFree.of_mem_entries mem).1

/-- What a lookup shows of a value inside a record: a leaf as it is, and a container by its flat
view, unless that is empty. -/
def shown? (v : Value) : Option Value :=
  if v.isContainer then
    match v.flatten none with
    | [] => none
    | flat => some (.mapping flat)
  else some v

end Value

namespace Container

theorem afterStart?_eq_some_iff (start text rest : String) :
    afterStart? start text = some rest ↔ text = start ++ rest := by
  rw [← String.toList_inj, String.toList_append, afterStart?]
  by_cases h : start.toList <+: text.toList
  · obtain ⟨chars, split⟩ := h
    rw [if_pos (List.isPrefixOf_iff_prefix.2 ⟨chars, split⟩), ← split, List.drop_left,
      Option.some_inj, List.append_cancel_left_eq]
    constructor
    · rintro rfl
      rw [String.toList_ofList]
    · intro same
      rw [same, String.ofList_toList]
  · rw [if_neg (mt List.isPrefixOf_iff_prefix.1 h)]
    refine iff_of_false (by simp) fun split => h ?_
    exact ⟨rest.toList, split.symm⟩

theorem afterStart?_join {path : List String} (nonempty : path ≠ [])
    (dotFree : ∀ s ∈ path, '.' ∉ s.toList) (key : String) :
    afterStart? (key ++ ".") (Path.join path) =
      (Path.beyond? (Path.segments key) path).map Path.join := by
  ext rest
  rw [afterStart?_eq_some_iff, Option.map_eq_some_iff]
  simp only [Path.beyond?_eq_some_iff]
  constructor
  · -- Splitting both texts at their dots takes the key's segments off the path.
    intro split
    have segments := congrArg Path.segments split
    rw [Path.segments_join nonempty dotFree, Path.segments_append_dot] at segments
    exact ⟨Path.segments rest, ⟨segments, Path.segments_ne_nil rest⟩, Path.join_segments rest⟩
  · rintro ⟨tail, ⟨rfl, beyond⟩, rfl⟩
    rw [Path.join_append (Path.segments_ne_nil key) beyond, Path.join_segments]

/-- The entries below a key are the flat view of the value that its segments lead to. -/
theorem entriesBelow_eq_flatten {c : Container} (flat : c.flat = c.record.flatten none)
    (distinct : c.record.WellFormed) (dotFree : c.record.DotFree) (key : String) :
    c.entriesBelow key =
      ((c.record.descend? (Path.segments key)).map fun v => v.flatten none).getD [] := by
  have renamed : c.entriesBelow key =
      (c.record.leaves.filterMap (Value.beyond? (Path.segments key))).map
        fun l => (Path.join l.1, l.2) := by
    rw [entriesBelow, flat, Value.flatten_eq_map_leaves distinct dotFree, List.filterMap_map,
      List.map_filterMap]
    refine List.filterMap_congr fun l mem => ?_
    have leafAt := (Value.mem_leaves_iff c.record l.1 l.2).1 mem
    obtain ⟨nonempty, segments⟩ := leafAt.path_dotFree dotFree
    simp [Value.beyond?, afterStart?_join nonempty segments, Function.comp_def]
  rw [renamed, Value.leaves_beyond distinct]
  cases found : c.record.descend? (Path.segments key) with
  | none => rfl
  | some v =>
      exact (Value.flatten_eq_map_leaves (distinct.descend? found)
        (dotFree.descend? distinct found)).symm

theorem get?_of_absent {c : Container} (flat : c.flat = c.record.flatten none)
    (distinct : c.record.WellFormed) (dotFree : c.record.DotFree) {key : String}
    (absent : c.record.get? key = none) :
    c.get? key = (c.record.descend? (Path.segments key)).bind Value.shown? := by
  have below := entriesBelow_eq_flatten flat distinct dotFree key
  have leaf := Value.lookup_flatten distinct dotFree key
  rw [get?, absent, flat, leaf, below]
  cases c.record.descend? (Path.segments key) with
  | none => rfl
  | some v =>
      rw [Option.bind_some, Value.shown?, Option.map_some, Option.getD_some, Option.filter_some]
      cases v.isContainer <;> rfl

/-- Without dots in names, a key of one segment finds the direct member, and a longer one what its
segments lead to: a leaf as it is, a container by its flat view. Nothing is found where a segment
names no member, and nothing in a container without leaves. -/
theorem get?_follows_segments {record : Value} (distinct : record.WellFormed)
    (dotFree : record.DotFree) (key : String) :
    ∃ c, (Factory.mk none).create record = .ok c ∧
      ((Path.segments key).length = 1 → c.get? key = record.get? key) ∧
      (2 ≤ (Path.segments key).length →
        c.get? key = (record.descend? (Path.segments key)).bind Value.shown?) := by
  refine ⟨⟨record, none, none, none, record.flatten none⟩, rfl, ?_, ?_⟩
  · intro single
    have alone := Path.segments_of_length_eq_one single
    cases found : record.get? key with
    | some v => rw [get?, found]
    | none =>
        rw [get?_of_absent rfl distinct dotFree found, alone, Value.descend?, found]
        rfl
  · intro several
    have dotted : '.' ∈ key.toList := by
      by_contra free
      rw [Path.segments_of_dotFree free, List.length_singleton] at several
      omega
    exact get?_of_absent rfl distinct dotFree (Value.get?_of_dotted distinct dotFree dotted)

def furnished : Value :=
  .mapping [("room", .mapping [("beds", .sequence [.bool true, .null]), ("", .mapping [])]),
    ("rooms", .string "two")]

theorem get?_in_furnished :
    furnished.WellFormed ∧ furnished.DotFree ∧
    ∃ c, (Factory.mk none).create furnished = .ok c ∧
      c.get? "room.beds" = some (.mapping [("0", .bool true), ("1", .null)]) := by
  have distinct : furnished.WellFormed := by
    simp [furnished, Value.WellFormed, Value.WellFormedMembers, Value.WellFormedItems,
      Members.names]
  have dotFree : furnished.DotFree := by
    have leaves : (Value.bool true).DotFree ∧ Value.null.DotFree ∧ (Value.string "two").DotFree :=
      ⟨.leaf rfl, .leaf rfl, .leaf rfl⟩
    simp [furnished, Value.dotFree_mapping_iff, Value.dotFree_sequence_iff, Members.names, leaves]
  obtain ⟨c, created, -, below⟩ := get?_follows_segments distinct dotFree "room.beds"
  exact ⟨distinct, dotFree, c, created, below (by decide)⟩

end Container

end RecordSchema
