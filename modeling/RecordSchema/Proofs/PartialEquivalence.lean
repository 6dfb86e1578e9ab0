import Mathlib.Logic.Relation
import RecordSchema.Proofs.Equality

namespace RecordSchema

theorem Number.same_trans (m n k : Number) (h : m.same n = true) (h' : n.same k = true) :
    m.same k = true := by
  have alike : m.Alike n := .inl h
  rw [alike.same_eq, h']

namespace Value

inductive HoldsNumber (n : Number) : Value → Prop
  | here : HoldsNumber n (.number n)
  | item {items : List Value} {v : Value} (mem : v ∈ items) (h : HoldsNumber n v) :
      HoldsNumber n (.sequence items)
  | member {members : Record} {m : String × Value} (mem : m ∈ members) (h : HoldsNumber n m.2) :
      HoldsNumber n (.mapping members)
  | custom (typeName : String) {v : Value} (h : HoldsNumber n v) :
      HoldsNumber n (.custom typeName v)

namespace EqualBy

variable {r s t : Number → Number → Prop} {a b c : Value}

theorem refl (each : ∀ n, a.HoldsNumber n → r n n) : a.EqualBy r a := by
  induction a using Value.induction with
  | undefined | null | bool | string | function => constructor
  | number n => exact .number (each n .here)
  | sequence items ih =>
      refine .sequence (List.forall₂_same.2 fun v mem => ?_)
      exact ih v mem fun n holds => each n (.item mem holds)
  | mapping members ih =>
      refine .mapping (List.forall₂_same.2 fun m mem => ?_) (.refl members)
      exact .intro m.1 (ih m mem fun n holds => each n (.member mem holds))
  | custom typeName v ih => exact .custom typeName (ih fun n holds => each n (.custom typeName holds))

theorem trans (compose : ∀ m n k, r m n → s n k → t m k) (h : a.EqualBy r b)
    (h' : b.EqualBy s c) : a.EqualBy t c := by
  induction a using Value.induction generalizing b c with
  | undefined | null | bool | string | function =>
      cases h
      cases h'
      constructor
  | number n =>
      cases h with
      | number h =>
          cases h' with
          | number h' => exact .number (compose _ _ _ h h')
  | sequence items ih =>
      cases h with
      | sequence each =>
          cases h' with
          | sequence each' =>
              have chained :=
                Fallible.exists_forall₂_comp_iff.1 ⟨_, Fallible.forall₂_with_mem each, each'⟩
              refine .sequence (chained.imp ?_)
              rintro x z ⟨y, ⟨mem, -, first⟩, second⟩
              exact ih x mem first second
  | mapping members ih =>
      cases h with
      | mapping each order =>
          cases h' with
          | mapping each' order' =>
              have first : UpToOrder (Keyed (EqualBy r)) members _ := ⟨_, each, order⟩
              have second : UpToOrder (Keyed (EqualBy s)) _ _ := ⟨_, each', order'⟩
              refine (equalBy_mapping_iff _ _).2 (first.comp ?_ second)
              rintro m mem n k ⟨key, h⟩ ⟨_, h'⟩
              exact .intro key (ih _ mem h h')
  | custom typeName v ih =>
      cases h with
      | custom _ h =>
          cases h' with
          | custom _ h' => exact .custom typeName (ih h h')

/-- A number in one value has its partner in the other. -/
theorem exists_number (h : a.EqualBy r b) {n : Number} (holds : a.HoldsNumber n) :
    ∃ m, b.HoldsNumber m ∧ r n m := by
  induction holds generalizing b with
  | here =>
      cases h with
      | number h => exact ⟨_, .here, h⟩
  | item mem _ ih =>
      cases h with
      | sequence each =>
          obtain ⟨y, from_ys, related⟩ := Fallible.forall₂_exists_left each.flip mem
          obtain ⟨m, holds, same⟩ := ih related
          exact ⟨m, .item from_ys holds, same⟩
  | member mem _ ih =>
      cases h with
      | mapping each order =>
          have paired : UpToOrder (Keyed (EqualBy r)) _ _ := ⟨_, each, order⟩
          obtain ⟨y, from_ys, related⟩ := paired.exists_right mem
          obtain ⟨m, holds, same⟩ := ih related.content
          exact ⟨m, .member from_ys holds, same⟩
  | custom typeName _ ih =>
      cases h with
      | custom _ h =>
          obtain ⟨m, holds, same⟩ := ih h
          exact ⟨m, .custom typeName holds, same⟩

end EqualBy

variable {a b c : Value}

theorem Equal.trans (h : a.Equal b) (h' : b.Equal c) : a.Equal c :=
  EqualBy.trans Number.same_trans h h'

theorem equal_self_iff : a.Equal a ↔ ¬ a.HoldsNumber .nan := by
  constructor
  · intro h holds
    obtain ⟨m, -, same⟩ := h.exists_number holds
    cases same
  · intro free
    refine .refl fun n holds => Number.same_self ?_
    rintro rfl
    exact free holds

/-- One mapping, at any depth, has its members in another order. -/
inductive Reorders : Value → Value → Prop
  | here {members others : Record} (order : members.Perm others) :
      Reorders (.mapping members) (.mapping others)
  | item {before after : List Value} {v w : Value} (h : Reorders v w) :
      Reorders (.sequence (before ++ v :: after)) (.sequence (before ++ w :: after))
  | member {before after : Record} (key : String) {v w : Value} (h : Reorders v w) :
      Reorders (.mapping (before ++ (key, v) :: after)) (.mapping (before ++ (key, w) :: after))
  | custom (typeName : String) {v w : Value} (h : Reorders v w) :
      Reorders (.custom typeName v) (.custom typeName w)

def Reordered : Value → Value → Prop :=
  Relation.ReflTransGen Reorders

theorem Reorders.equalBy (h : a.Reorders b) : a.EqualBy Eq b := by
  have same (v : Value) : v.EqualBy Eq v := .refl fun n _ => rfl
  have member (m : String × Value) : Keyed (EqualBy Eq) m m := .intro m.1 (same m.2)
  induction h with
  | here order => exact .mapping (List.forall₂_same.2 fun m _ => member m) order
  | @item before after v w _ ih =>
      refine .sequence (List.rel_append (List.forall₂_same.2 fun x _ => same x) (.cons ih ?_))
      exact List.forall₂_same.2 fun x _ => same x
  | @member before after key v w _ ih =>
      refine .mapping (List.rel_append (List.forall₂_same.2 fun m _ => member m)
        (.cons (.intro key ih) ?_)) (.refl _)
      exact List.forall₂_same.2 fun m _ => member m
  | custom typeName _ ih => exact .custom typeName ih

theorem Reordered.equalBy (h : a.Reordered b) : a.EqualBy Eq b := by
  -- Along the steps, where the numbers stay as they are.
  induction h with
  | refl => exact .refl fun n _ => rfl
  | tail _ step ih => exact ih.trans (fun m n k first second => first.trans second) step.equalBy

theorem Reordered.equal (h : a.Reordered b) (free : ¬ a.HoldsNumber .nan) : a.Equal b := by
  -- Each number is equal to itself, and reordering leaves it alone.
  have itself : a.Equal a := equal_self_iff.2 free
  exact EqualBy.trans (fun m n k same (stays : n = k) => stays ▸ same) itself h.equalBy

/-- Equality is symmetric and transitive. A value is equal to itself exactly if NaN stands nowhere
in it, and is then equal to all its reorderings. -/
theorem same_partial_equivalence (distinct : a.WellFormed) (distinct' : b.WellFormed)
    (distinct'' : c.WellFormed) :
    (a.same b = true → b.same a = true) ∧
    (a.same b = true → b.same c = true → a.same c = true) ∧
    (a.same a = true ↔ ¬ a.HoldsNumber .nan) ∧
    (¬ a.HoldsNumber .nan → ∀ other, a.Reordered other → a.same other = true) := by
  rw [same_iff distinct distinct', same_iff distinct' distinct, same_iff distinct' distinct'',
    same_iff distinct distinct'', same_iff distinct distinct]
  refine ⟨Equal.symm, Equal.trans, equal_self_iff, fun free other reordered => ?_⟩
  have distinct_other : other.WellFormed := reordered.equalBy.wellFormed distinct
  exact (same_iff distinct distinct_other).2 (reordered.equal free)

end Value

namespace Chart

def leg (drift : Number) : Value :=
  .mapping [("port", .string "Brest"), ("drift", .number drift)]

def turnedLeg (drift : Number) : Value :=
  .mapping [("drift", .number drift), ("port", .string "Brest")]

def crew : Value :=
  .custom "Int" (.number (.ofNat 2))

def drawn : Value :=
  .mapping [("legs", .sequence [leg (.zero false)]), ("crew", crew)]

def traced : Value :=
  .mapping [("crew", crew), ("legs", .sequence [turnedLeg (.zero true)])]

def printed : Value :=
  .mapping [("legs", .sequence [turnedLeg (.zero true)]), ("crew", crew)]

def redrawn : Value :=
  .mapping [("crew", crew), ("legs", .sequence [turnedLeg (.zero false)])]

def blotted : Value :=
  .sequence [.custom "Leg" (leg .nan), crew]

theorem drawn_reordered : drawn.Reordered redrawn := by
  have turned : (leg (.zero false)).Reorders (turnedLeg (.zero false)) := .here (.swap _ _ _)
  have legs : (Value.sequence [leg (.zero false)]).Reorders
      (.sequence [turnedLeg (.zero false)]) := @Value.Reorders.item [] [] _ _ turned
  have inner := @Value.Reorders.member [] [("crew", crew)] "legs" _ _ legs
  exact .tail (.single inner) (.here (.swap _ _ _))

theorem equality_of_charts :
    (drawn.WellFormed ∧ traced.WellFormed ∧ printed.WellFormed ∧ blotted.WellFormed) ∧
    (drawn.same traced = true ∧ traced.same drawn = true) ∧
    (traced.same printed = true ∧ drawn.same printed = true) ∧
    (drawn.same drawn = true ∧ drawn.same redrawn = true) ∧ blotted.same blotted = false := by
  have distinct : drawn.WellFormed := by
    simp [drawn, leg, crew, Value.WellFormed, Value.WellFormedItems, Value.WellFormedMembers,
      Members.names]
  have distinct' : traced.WellFormed := by
    simp [traced, turnedLeg, crew, Value.WellFormed, Value.WellFormedItems,
      Value.WellFormedMembers, Members.names]
  have distinct'' : printed.WellFormed := by
    simp [printed, turnedLeg, crew, Value.WellFormed, Value.WellFormedItems,
      Value.WellFormedMembers, Members.names]
  have distinct_blotted : blotted.WellFormed := by
    simp [blotted, leg, crew, Value.WellFormed, Value.WellFormedItems, Value.WellFormedMembers,
      Members.names]
  have first : drawn.same traced = true := by decide +kernel
  have second : traced.same printed = true := by decide +kernel
  have itself : drawn.same drawn = true := by decide +kernel
  have stained : blotted.HoldsNumber .nan := by
    refine .item List.mem_cons_self (.custom "Leg" ?_)
    exact .member (List.mem_cons_of_mem _ List.mem_cons_self) .here
  obtain ⟨symm, trans, self, reordered⟩ :=
    Value.same_partial_equivalence distinct distinct' distinct''
  obtain ⟨-, -, self_blotted, -⟩ :=
    Value.same_partial_equivalence distinct_blotted distinct distinct
  refine ⟨⟨distinct, distinct', distinct'', distinct_blotted⟩, ⟨first, symm first⟩,
    ⟨second, trans first second⟩, ⟨itself, reordered (self.1 itself) _ drawn_reordered⟩, ?_⟩
  exact Bool.eq_false_iff.2 fun same => self_blotted.1 same stained

end Chart

end RecordSchema
