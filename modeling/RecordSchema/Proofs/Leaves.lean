import RecordSchema.Flatten
import RecordSchema.Proofs.Membership

namespace RecordSchema

namespace Value

def hang (key : String) (v : Value) (inside : List (List String × Value)) :
    List (List String × Value) :=
  if v.isContainer then inside.map fun l => (key :: l.1, l.2) else [([key], v)]

mutual

def leaves : Value → List (List String × Value)
  | sequence items => itemLeaves 0 items
  | mapping members => memberLeaves members
  | _ => []

def itemLeaves (start : Nat) : List Value → List (List String × Value)
  | [] => []
  | v :: r => hang start.repr v (leaves v) ++ itemLeaves (start + 1) r

def memberLeaves : List (String × Value) → List (List String × Value)
  | [] => []
  | (k, v) :: r => hang k v (leaves v) ++ memberLeaves r

end

theorem memberLeaves_eq_flatMap (members : Record) :
    memberLeaves members = members.flatMap fun m => hang m.1 m.2 m.2.leaves := by
  induction members with
  | nil => rfl
  | cons m r ih => rw [memberLeaves, ih, List.flatMap_cons]

theorem itemLeaves_eq_flatMap (start : Nat) (items : List Value) :
    itemLeaves start items =
      (entriesFrom start items).flatMap fun m => hang m.1 m.2 m.2.leaves := by
  induction items generalizing start with
  | nil => rfl
  | cons v r ih => rw [itemLeaves, ih, entriesFrom, List.flatMap_cons]

theorem leaves_eq_flatMap (v : Value) :
    v.leaves = v.entries.flatMap fun m => hang m.1 m.2 m.2.leaves := by
  cases v with
  | sequence items => exact itemLeaves_eq_flatMap 0 items
  | mapping members => exact memberLeaves_eq_flatMap members
  | _ => rfl

inductive LeafAt : Value → List String → Value → Prop
  | here {v leaf : Value} {key : String} (mem : (key, leaf) ∈ v.entries)
      (h : leaf.isContainer = false) : LeafAt v [key] leaf
  | deeper {v w leaf : Value} {key : String} {path : List String} (mem : (key, w) ∈ v.entries)
      (rest : LeafAt w path leaf) : LeafAt v (key :: path) leaf

theorem LeafAt.isContainer {v leaf : Value} {path : List String} (h : v.LeafAt path leaf) :
    v.isContainer = true := by
  have member : ∃ m, m ∈ v.entries := by
    cases h with
    | here mem | deeper mem => exact ⟨_, mem⟩
  obtain ⟨m, mem⟩ := member
  cases v with
  | sequence | mapping => rfl
  | _ => cases mem

theorem LeafAt.leaf_not_container {v leaf : Value} {path : List String} (h : v.LeafAt path leaf) :
    leaf.isContainer = false := by
  induction h with
  | here _ other => exact other
  | deeper _ _ ih => exact ih

theorem LeafAt.path_ne_nil {v leaf : Value} {path : List String} (h : v.LeafAt path leaf) :
    path ≠ [] := by
  cases h with
  | here | deeper => exact List.cons_ne_nil _ _

theorem mem_leaves_iff (v : Value) (path : List String) (leaf : Value) :
    (path, leaf) ∈ v.leaves ↔ v.LeafAt path leaf := by
  induction v using induction_entries generalizing path with
  | step v ih =>
      rw [leaves_eq_flatMap, List.mem_flatMap]
      constructor
      · rintro ⟨m, mem, h⟩
        rw [hang] at h
        split at h
        · obtain ⟨l, from_l, same⟩ := List.mem_map.1 h
          obtain ⟨rfl, rfl⟩ := Prod.mk.inj same
          exact .deeper mem ((ih m mem l.1).1 from_l)
        · next other =>
            obtain ⟨rfl, rfl⟩ := Prod.mk.inj (List.mem_singleton.1 h)
            exact .here mem (Bool.not_eq_true _ ▸ other)
      · intro h
        cases h with
        | @here _ _ key mem other =>
            refine ⟨(key, leaf), mem, ?_⟩
            rw [hang, other, if_neg Bool.false_ne_true]
            exact List.mem_singleton_self _
        | @deeper _ w _ key path mem rest =>
            refine ⟨(key, w), mem, ?_⟩
            rw [hang, rest.isContainer, if_pos rfl]
            exact List.mem_map.2 ⟨(path, leaf), (ih _ mem path).2 rest, rfl⟩

/-- Two paths part at some place, where the first goes to an earlier member than the second. -/
inductive Precedes : Value → List String → List String → Prop
  | part {v : Value} {k l : String} {p q : List String}
      (order : [k, l].Sublist (Members.names v.entries)) : Precedes v (k :: p) (l :: q)
  | deeper {v w : Value} {key : String} {p q : List String} (mem : (key, w) ∈ v.entries)
      (rest : Precedes w p q) : Precedes v (key :: p) (key :: q)

theorem exists_path_of_mem_hang {key : String} {v : Value} {inside : List (List String × Value)}
    {l : List String × Value} (h : l ∈ hang key v inside) : ∃ path, l.1 = key :: path := by
  rw [hang] at h
  split at h
  · obtain ⟨inner, -, rfl⟩ := List.mem_map.1 h
    exact ⟨inner.1, rfl⟩
  · rw [List.mem_singleton.1 h]
    exact ⟨[], rfl⟩

theorem pairwise_precedes_leaves (v : Value) :
    v.leaves.Pairwise fun a b => v.Precedes a.1 b.1 := by
  induction v using induction_entries with
  | step v ih =>
      rw [leaves_eq_flatMap, List.pairwise_flatMap]
      constructor
      · intro m mem
        rw [hang]
        split
        · rw [List.pairwise_map]
          exact (ih m mem).imp (.deeper mem)
        · exact List.pairwise_singleton _ _
      · refine List.pairwise_iff_forall_sublist.2 fun sub x hx y hy => ?_
        obtain ⟨p, hp⟩ := exists_path_of_mem_hang hx
        obtain ⟨q, hq⟩ := exists_path_of_mem_hang hy
        rw [hp, hq]
        exact .part (sub.map Prod.fst)

theorem not_sublist_swap {names : List String} (distinct : names.Nodup) {k l : String}
    (order : [k, l].Sublist names) : ¬ [l, k].Sublist names := by
  induction names with
  | nil => cases order
  | cons first rest ih =>
      obtain ⟨fresh, distinct⟩ := List.nodup_cons.1 distinct
      intro back
      cases order with
      | cons _ order =>
          cases back with
          | cons _ back => exact ih distinct order back
          | cons_cons _ back => exact fresh (order.subset (by simp))
      | cons_cons _ order =>
          cases back with
          | cons _ back => exact fresh (back.subset (by simp))
          | cons_cons _ back => exact fresh (back.subset (by simp))

theorem Precedes.asymm {v : Value} {p q : List String} (h : v.Precedes p q)
    (distinct : v.WellFormed) : ¬ v.Precedes q p := by
  induction h with
  | part order =>
      intro back
      cases back with
      | part back => exact not_sublist_swap distinct.nodup_names order back
      | deeper => exact List.nodup_iff_sublist.1 distinct.nodup_names _ order
  | @deeper v w key p q mem rest ih =>
      intro back
      cases back with
      | part back => exact List.nodup_iff_sublist.1 distinct.nodup_names _ back
      | @deeper _ u _ _ _ other back =>
          have here := (get?_eq_some_iff distinct key w).2 mem
          rw [(get?_eq_some_iff distinct key u).2 other] at here
          obtain rfl := Option.some.inj here
          exact ih (distinct.of_mem_entries mem) back

theorem Precedes.ne {v : Value} {p q : List String} (h : v.Precedes p q)
    (distinct : v.WellFormed) : p ≠ q := by
  rintro rfl
  exact h.asymm distinct h

theorem nodup_leafPaths {v : Value} (distinct : v.WellFormed) : (v.leaves.map Prod.fst).Nodup := by
  refine List.pairwise_map.2 ?_
  exact (pairwise_precedes_leaves v).imp fun order => order.ne distinct

def descend? (v : Value) : List String → Option Value
  | [] => some v
  | key :: path => (v.get? key).bind fun w => w.descend? path

theorem LeafAt.descend?_eq {v leaf : Value} {path : List String} (h : v.LeafAt path leaf)
    (distinct : v.WellFormed) : v.descend? path = some leaf ∧ leaf.isContainer = false := by
  induction h with
  | here mem other => exact ⟨by rw [descend?, (get?_eq_some_iff distinct _ _).2 mem]; rfl, other⟩
  | deeper mem _ ih =>
      obtain ⟨found, other⟩ := ih (distinct.of_mem_entries mem)
      exact ⟨by rw [descend?, (get?_eq_some_iff distinct _ _).2 mem]; exact found, other⟩

theorem LeafAt.wellFormed {v leaf : Value} {path : List String} (h : v.LeafAt path leaf)
    (distinct : v.WellFormed) : leaf.WellFormed := by
  induction h with
  | here mem => exact distinct.of_mem_entries mem
  | deeper mem _ ih => exact ih (distinct.of_mem_entries mem)

inductive DotFree : Value → Prop
  | leaf {v : Value} (h : v.isContainer = false) : DotFree v
  | sequence {items : List Value} (each : ∀ item ∈ items, DotFree item) : DotFree (.sequence items)
  | mapping {members : Record} (names : ∀ name ∈ Members.names members, '.' ∉ name.toList)
      (each : ∀ m ∈ members, DotFree m.2) : DotFree (.mapping members)

theorem dot_not_mem_repr (n : Nat) : '.' ∉ n.repr.toList := by
  rw [Nat.repr_eq_ofList_toDigits, String.toList_ofList]
  intro mem
  have digit : '.'.isDigit = true := Nat.isDigit_of_mem_toDigits (by decide) (by decide) mem
  exact absurd digit (by decide)

theorem DotFree.of_mem_entries {v : Value} (h : v.DotFree) {m : String × Value}
    (mem : m ∈ v.entries) : '.' ∉ m.1.toList ∧ m.2.DotFree := by
  cases h with
  | leaf other =>
      cases v with
      | sequence | mapping => cases other
      | _ => cases mem
  | sequence each =>
      obtain ⟨i, at_i, numeral⟩ := mem_entriesFrom.1 mem
      rw [numeral]
      exact ⟨dot_not_mem_repr _, each _ (List.mem_of_getElem? at_i)⟩
  | mapping names each => exact ⟨names _ (List.mem_map.2 ⟨m, mem, rfl⟩), each m mem⟩

theorem dotFree_iff_entries (v : Value) :
    v.DotFree ↔ ∀ m ∈ v.entries, '.' ∉ m.1.toList ∧ m.2.DotFree := by
  refine ⟨fun h m mem => h.of_mem_entries mem, fun h => ?_⟩
  cases v with
  | sequence items =>
      refine .sequence fun item mem => ?_
      obtain ⟨i, at_i⟩ := List.mem_iff_getElem?.1 mem
      exact (h _ (mem_entriesFrom.2 ⟨i, at_i, rfl⟩)).2
  | mapping members =>
      refine .mapping ?_ fun m mem => (h m mem).2
      exact List.forall_mem_map.2 fun m mem => (h m mem).1
  | _ => exact .leaf rfl

theorem LeafAt.path_dotFree {v leaf : Value} {path : List String} (h : v.LeafAt path leaf)
    (dotFree : v.DotFree) : path ≠ [] ∧ ∀ key ∈ path, '.' ∉ key.toList := by
  induction h with
  | here mem =>
      obtain ⟨key, -⟩ := dotFree.of_mem_entries mem
      exact ⟨by simp, List.forall_mem_singleton.2 key⟩
  | deeper mem _ ih =>
      obtain ⟨key, inner⟩ := dotFree.of_mem_entries mem
      exact ⟨by simp, List.forall_mem_cons.2 ⟨key, (ih inner).2⟩⟩

theorem LeafAt.segments_join {v leaf : Value} {path : List String} (h : v.LeafAt path leaf)
    (dotFree : v.DotFree) : Path.segments (Path.join path) = path :=
  Path.segments_join (h.path_dotFree dotFree).1 (h.path_dotFree dotFree).2

theorem leafAt_iff {v leaf : Value} (distinct : v.WellFormed) (path : List String) :
    v.LeafAt path leaf ↔
      path ≠ [] ∧ v.descend? path = some leaf ∧ leaf.isContainer = false := by
  constructor
  · exact fun h => ⟨h.path_ne_nil, h.descend?_eq distinct⟩
  · rintro ⟨nonempty, found, other⟩
    induction path generalizing v with
    | nil => exact absurd rfl nonempty
    | cons key path ih =>
        obtain ⟨w, at_key, found⟩ := Option.bind_eq_some_iff.1 found
        have mem := (get?_eq_some_iff distinct key w).1 at_key
        cases path with
        | nil =>
            cases found
            exact .here mem other
        | cons second path =>
            exact .deeper mem (ih (distinct.of_mem_entries mem) (by simp) found)

theorem WellFormed.descend? {v w : Value} (h : v.WellFormed) {path : List String}
    (found : v.descend? path = some w) : w.WellFormed := by
  induction path generalizing v with
  | nil =>
      cases found
      exact h
  | cons key path ih =>
      obtain ⟨u, at_key, found⟩ := Option.bind_eq_some_iff.1 found
      exact ih (h.of_mem_entries ((get?_eq_some_iff h key u).1 at_key)) found

theorem DotFree.descend? {v w : Value} (h : v.DotFree) (distinct : v.WellFormed)
    {path : List String} (found : v.descend? path = some w) : w.DotFree := by
  induction path generalizing v with
  | nil =>
      cases found
      exact h
  | cons key path ih =>
      obtain ⟨u, at_key, found⟩ := Option.bind_eq_some_iff.1 found
      have mem := (get?_eq_some_iff distinct key u).1 at_key
      exact ih (h.of_mem_entries mem).2 (distinct.of_mem_entries mem) found

theorem dotFree_sequence_iff (items : List Value) :
    (sequence items).DotFree ↔ ∀ item ∈ items, item.DotFree :=
  ⟨fun | .sequence each => each, .sequence⟩

theorem dotFree_mapping_iff (members : Record) :
    (mapping members).DotFree ↔
      (∀ name ∈ Members.names members, '.' ∉ name.toList) ∧ ∀ m ∈ members, m.2.DotFree :=
  ⟨fun | .mapping names each => ⟨names, each⟩, fun ⟨names, each⟩ => .mapping names each⟩

theorem leaves_of_not_container {v : Value} (h : v.isContainer = false) : v.leaves = [] := by
  cases v with
  | sequence | mapping => cases h
  | _ => rfl

end Value

end RecordSchema
