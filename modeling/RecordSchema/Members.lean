namespace RecordSchema.Members

variable {α : Type}

/-- A name that is written again keeps its place and takes the new content. -/
def insert (name : String) (content : α) : List (String × α) → List (String × α)
  | [] => [(name, content)]
  | (k, a) :: r => if k = name then (k, content) :: r else (k, a) :: insert name content r

def insertAll (members written : List (String × α)) : List (String × α) :=
  written.foldl (fun done m => insert m.1 m.2 done) members

def ofList (written : List (String × α)) : List (String × α) :=
  insertAll [] written

def names (members : List (String × α)) : List String :=
  members.map Prod.fst

theorem lookup_insert (name key : String) (content : α) (members : List (String × α)) :
    (insert name content members).lookup key =
      if key = name then some content else members.lookup key := by
  induction members with
  | nil =>
    by_cases h : key = name
    · simp [insert, h]
    · simp [insert, List.lookup_cons, h, beq_eq_false_iff_ne.2 h]
  | cons m r ih =>
    obtain ⟨k, a⟩ := m
    by_cases hk : k = name
    · subst hk
      by_cases h : key = k
      · simp [insert, h]
      · simp [insert, List.lookup_cons, h, beq_eq_false_iff_ne.2 h]
    · by_cases h : key = k
      · subst h; simp [insert, hk]
      · simp [insert, List.lookup_cons, hk, beq_eq_false_iff_ne.2 h, ih]

theorem names_insert (name : String) (content : α) (members : List (String × α)) :
    names (insert name content members) =
      if name ∈ names members then names members else names members ++ [name] := by
  induction members with
  | nil => simp [insert, names]
  | cons m r ih =>
    obtain ⟨k, a⟩ := m
    by_cases hk : k = name
    · simp [insert, names, hk]
    · have other : ¬name = k := fun e => hk e.symm
      have step : names (insert name content ((k, a) :: r)) =
          k :: names (insert name content r) := by simp [insert, names, hk]
      have here : names ((k, a) :: r) = k :: names r := rfl
      rw [step, ih, here]
      by_cases hm : name ∈ names r <;> simp [hm, other]

theorem nodup_insert (name : String) (content : α) {members : List (String × α)}
    (h : (names members).Nodup) : (names (insert name content members)).Nodup := by
  rw [names_insert]
  split
  · exact h
  · next hn =>
    rw [List.nodup_append]
    refine ⟨h, by simp, ?_⟩
    intro a ha b hb
    simp only [List.mem_singleton] at hb
    subst hb
    exact fun e => hn (e ▸ ha)

theorem nodup_insertAll {members : List (String × α)} (written : List (String × α))
    (h : (names members).Nodup) : (names (insertAll members written)).Nodup := by
  induction written generalizing members with
  | nil => exact h
  | cons m r ih => exact ih (nodup_insert m.1 m.2 h)

theorem insert_of_not_mem {name : String} (content : α) {members : List (String × α)}
    (fresh : name ∉ names members) : insert name content members = members ++ [(name, content)] := by
  induction members with
  | nil => rfl
  | cons m r ih =>
      obtain ⟨k, a⟩ := m
      obtain ⟨other, fresh⟩ := not_or.1 (mt List.mem_cons.2 fresh)
      rw [insert, if_neg (Ne.symm other), ih fresh, List.cons_append]

theorem insertAll_append (members written more : List (String × α)) :
    insertAll members (written ++ more) = insertAll (insertAll members written) more :=
  List.foldl_append

/-- Fresh names are put at the end. -/
theorem insertAll_of_nodup {members written : List (String × α)}
    (distinct : (names (members ++ written)).Nodup) :
    insertAll members written = members ++ written := by
  induction written generalizing members with
  | nil => exact (List.append_nil members).symm
  | cons m r ih =>
      have parts : (members ++ m :: r) = (members ++ [m]) ++ r := by simp
      have fresh : m.1 ∉ names members := by
        intro mem
        rw [names, List.map_append] at distinct
        exact (List.nodup_append.1 distinct).2.2 _ mem _ List.mem_cons_self rfl
      rw [parts] at distinct ⊢
      rw [← ih distinct, ← insert_of_not_mem m.2 fresh]
      rfl

theorem nodup_ofList (written : List (String × α)) : (names (ofList written)).Nodup :=
  nodup_insertAll written (by simp [names])

end RecordSchema.Members
