import RecordSchema.Proofs.Equality
import RecordSchema.Proofs.JsonForm

namespace RecordSchema.Value

inductive Storable : Value → Prop
  | null : Storable .null
  | bool (b : Bool) : Storable (.bool b)
  | number {n : Number} (finite : n.isFinite = true) : Storable (.number n)
  | string (s : String) : Storable (.string s)
  | sequence {items : List Value} (h : ∀ item ∈ items, Storable item) : Storable (.sequence items)
  | mapping {members : Record} (h : ∀ m ∈ members, Storable m.2) : Storable (.mapping members)

theorem Storable.plain {v : Value} (h : v.Storable) : v.Plain := by
  induction h with
  | null => exact .null
  | bool b => exact .bool b
  | number => exact .number _
  | string s => exact .string s
  | sequence _ ih => exact .sequence ih
  | mapping _ ih => exact .mapping ih

inductive EqualInOrder : Value → Value → Prop
  | null : EqualInOrder .null .null
  | bool (b : Bool) : EqualInOrder (.bool b) (.bool b)
  | number {m n : Number} (h : m.same n = true) : EqualInOrder (.number m) (.number n)
  | string (s : String) : EqualInOrder (.string s) (.string s)
  | sequence {xs ys : List Value} (each : List.Forall₂ EqualInOrder xs ys) :
      EqualInOrder (.sequence xs) (.sequence ys)
  | mapping {xs ys : Record} (each : List.Forall₂ (Keyed EqualInOrder) xs ys) :
      EqualInOrder (.mapping xs) (.mapping ys)

namespace EqualInOrder

variable {a b : Value}

theorem equal (h : a.EqualInOrder b) : a.Equal b := by
  induction a using Value.induction generalizing b with
  | undefined | function | custom => cases h
  | null | bool | string => cases h; constructor
  | number n =>
      cases h with
      | number h => exact .number h
  | sequence items ih =>
      cases h with
      | sequence each =>
          refine .sequence ((Fallible.forall₂_with_mem each).imp ?_)
          rintro x y ⟨mem, -, related⟩
          exact ih x mem related
  | mapping members ih =>
      cases h with
      | mapping each =>
          refine .mapping ((Fallible.forall₂_with_mem each).imp ?_) (.refl _)
          rintro m n ⟨mem, -, ⟨key, related⟩⟩
          exact .intro key (ih _ mem related)

theorem wellFormed (h : a.EqualInOrder b) (distinct : b.WellFormed) : a.WellFormed :=
  h.equal.symm.wellFormed distinct

theorem same (h : a.EqualInOrder b) (distinct : b.WellFormed) : a.same b = true :=
  (same_iff (h.wellFormed distinct) distinct).2 h.equal

end EqualInOrder

theorem Storable.reread_equalInOrder {v : Value} (h : v.Storable) : v.reread.EqualInOrder v := by
  induction h with
  | null => exact .null
  | bool b => exact .bool b
  | string s => exact .string s
  | @number n finite =>
      obtain same | ⟨rfl, same⟩ := reread_number_of_finite finite
      · rw [same]
        cases n with
        | finite => exact .number (Number.same_self (by simp))
        | nan | infinite => cases finite
      · rw [same]
        exact .number rfl
  | sequence h ih =>
      rw [reread_sequence fun item mem => (h item mem).plain]
      exact .sequence (List.forall₂_map_left_iff.2 (List.forall₂_same.2 ih))
  | mapping h ih =>
      rw [reread_mapping fun m mem => (h m mem).plain]
      refine .mapping (List.forall₂_map_left_iff.2 (List.forall₂_same.2 fun m mem => ?_))
      exact .intro m.1 (ih m mem)

/-- What JSON has a place for is read back equal and in order, and from the JSON form of any value
the same form is read back. -/
theorem json_round_trip :
    (∀ v : Value, v.Storable → v.WellFormed → ∃ j, v.toJson? = some j ∧
      (ofJson j).same v = true ∧ (ofJson j).EqualInOrder v) ∧
    ∀ (v : Value) (j : Json), v.toJson? = some j → (ofJson j).toJson? = some j := by
  constructor
  · intro v storable distinct
    obtain ⟨j, form⟩ := storable.plain.exists_toJson?
    have equal := storable.reread_equalInOrder
    rw [reread_of_toJson? form] at equal
    exact ⟨j, form, equal.same distinct, equal⟩
  · intro v j form
    exact toJson?_ofJson form

def receipt : Value :=
  .mapping [("total", .number (.zero true)),
    ("lines", .sequence [.mapping [("text", .string "tea"), ("note", .null)], .bool true])]

theorem receipt_round_trip :
    (∃ j, receipt.toJson? = some j ∧ (ofJson j).same receipt = true ∧
      (ofJson j).EqualInOrder receipt) ∧
    ∃ j, (Value.sequence [.undefined, .mapping [("f", .function 0), ("n", .number .nan)]]).toJson? =
      some j ∧ (ofJson j).toJson? = some j := by
  have line : (mapping [("text", .string "tea"), ("note", .null)]).Storable :=
    .mapping (List.forall_mem_cons.2 ⟨.string "tea", List.forall_mem_singleton.2 .null⟩)
  have lines := Storable.sequence
    (List.forall_mem_cons.2 ⟨line, List.forall_mem_singleton.2 (.bool true)⟩)
  have storable : receipt.Storable :=
    .mapping (List.forall_mem_cons.2 ⟨.number rfl, List.forall_mem_singleton.2 lines⟩)
  have distinct : receipt.WellFormed := by
    simp [receipt, WellFormed, WellFormedItems, WellFormedMembers, Members.names]
  obtain ⟨round_trip, form_kept⟩ := json_round_trip
  exact ⟨round_trip receipt storable distinct, _, rfl, form_kept (.sequence _) _ rfl⟩

end RecordSchema.Value
