namespace RecordSchema.Path

def extend (base : Option String) (key : String) : String :=
  match base with
  | some path => path ++ "." ++ key
  | none => key

/-- An empty base is no base. -/
def base? (path : Option String) : Option String :=
  path.filter fun p => !p.isEmpty

theorem base?_of_nonempty {path : String} (h : path ≠ "") : base? (some path) = some path := by
  simp [base?, h]

def segments (path : String) : List String :=
  (path.toList.splitOn '.').map String.ofList

def join (segments : List String) : String :=
  ".".intercalate segments

theorem join_cons_cons (first second : String) (rest : List String) :
    join (first :: second :: rest) = first ++ "." ++ join (second :: rest) :=
  String.intercalate_cons_cons

/-- The path of a member leads through the path of what it is a member of. -/
theorem join_extend (base : Option String) (key : String) (rest : List String) :
    join (extend base key :: rest) = join (base.toList ++ key :: rest) := by
  cases base with
  | none => rfl
  | some path =>
      rw [Option.toList_some, List.singleton_append, join_cons_cons, extend]
      cases rest with
      | nil => rfl
      | cons => simp only [join_cons_cons, String.append_assoc]

theorem segments_join {segments : List String} (h : segments ≠ [])
    (dotFree : ∀ s ∈ segments, '.' ∉ s.toList) :
    Path.segments (join segments) = segments := by
  have e : (join segments).toList = List.intercalate ['.'] (segments.map String.toList) := by
    simp [join, String.toList_intercalate]
  rw [Path.segments, e, List.splitOn_intercalate]
  · simp [List.map_map, Function.comp_def]
  · intro l hl
    obtain ⟨s, hs, rfl⟩ := List.mem_map.1 hl
    exact dotFree s hs
  · simpa using h

theorem segments_ne_nil (path : String) : segments path ≠ [] := by
  simp [segments, List.splitOn_ne_nil]

theorem join_segments (path : String) : join (segments path) = path := by
  apply String.toList_inj.1
  rw [join, segments, String.toList_intercalate, List.map_map]
  have chars : String.toList ∘ String.ofList = id := by
    funext l
    exact String.toList_ofList
  rw [chars, List.map_id]
  exact List.intercalate_splitOn '.'

theorem segments_of_dotFree {path : String} (h : '.' ∉ path.toList) : segments path = [path] := by
  rw [segments, List.splitOn_eq_singleton h, List.map_singleton, String.ofList_toList]

theorem segments_of_length_eq_one {path : String} (h : (segments path).length = 1) :
    segments path = [path] := by
  obtain ⟨segment, alone⟩ := List.length_eq_one_iff.1 h
  have joined := join_segments path
  rw [alone] at joined
  rw [alone, ← joined]
  rfl

theorem segments_append_dot (path rest : String) :
    segments (path ++ "." ++ rest) = segments path ++ segments rest := by
  have dot : (path ++ "." ++ rest).toList = path.toList ++ '.' :: rest.toList := by simp
  rw [segments, dot, List.splitOn_append_cons_self, List.map_append]
  rfl

theorem join_append {front back : List String} (hf : front ≠ []) (hb : back ≠ []) :
    join (front ++ back) = join front ++ "." ++ join back := by
  induction front with
  | nil => exact absurd rfl hf
  | cons first front ih =>
      cases front with
      | nil =>
          obtain ⟨second, rest, rfl⟩ := List.exists_cons_of_ne_nil hb
          exact join_cons_cons first second rest
      | cons second front =>
          have inner := ih (by simp)
          rw [List.cons_append] at inner
          rw [List.cons_append, List.cons_append, join_cons_cons, inner, join_cons_cons]
          simp only [String.append_assoc]

/-- A path below a base is the path of one member of the base. -/
theorem join_base (base : Option String) {path : List String} (h : path ≠ []) :
    join (base.toList ++ path) = extend base (join path) := by
  cases base with
  | none => rfl
  | some start => exact join_append (List.cons_ne_nil start []) h

theorem extend_injective (base : Option String) : Function.Injective (extend base) := by
  cases base with
  | none => exact fun a b same => same
  | some start => exact fun a b same => (String.append_right_inj _).1 same

end RecordSchema.Path
