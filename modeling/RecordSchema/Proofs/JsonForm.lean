import RecordSchema.Proofs.Membership
import RecordSchema.Value.Json

namespace RecordSchema

namespace Number

def isFinite : Number → Bool
  | finite _ _ _ => true
  | _ => false

theorem isFinite_of_isInteger {n : Number} (h : n.isInteger = true) : n.isFinite = true := by
  cases n with
  | finite => rfl
  | nan | infinite => cases h

theorem isInteger_zero (negative : Bool) : (zero negative).isInteger = true := by
  rw [zero, isInteger, toInt?, if_pos (Nat.zero_mod _), Option.isSome_some]

theorem ofUnits_of_representable {units : Nat} (negative : Bool) (fits : Representable units) :
    ofUnits negative units = .finite negative units fits :=
  dif_pos fits

theorem ofInt_signed (negative : Bool) {q units : Nat} (fits : Representable units)
    (whole : q * unitsPerOne = units) :
    ofInt (signed negative q) = .finite (negative && decide (q ≠ 0)) units fits := by
  have size : (signed negative q).natAbs = q := by
    cases negative <;> simp [signed]
  have sign : decide (signed negative q < 0) = (negative && decide (q ≠ 0)) := by
    cases negative with
    | false => simp [signed]
    | true => simp [signed, Nat.pos_iff_ne_zero]
  have back := nearestUnits_of_representable fits 1 Nat.one_pos
  rw [Nat.mul_one] at back
  rw [ofInt, size, whole, sign, nearest, back, ofUnits_of_representable _ fits]

/-- An integer is the number it was taken from, up to the sign of zero. -/
theorem ofInt_toInt? {n : Number} {i : Int} (h : n.toInt? = some i) :
    ofInt i = n ∨ (n = zero true ∧ ofInt i = zero false) := by
  cases n with
  | nan => cases h
  | infinite negative => cases h
  | finite negative units fits =>
      rw [toInt?, Option.ite_none_right_eq_some, Option.some_inj] at h
      obtain ⟨divides, rfl⟩ := h
      have whole : units / unitsPerOne * unitsPerOne = units :=
        Nat.div_mul_cancel (Nat.dvd_of_mod_eq_zero divides)
      rw [ofInt_signed negative fits whole]
      by_cases none : units / unitsPerOne = 0
      · have empty : units = 0 := by rw [← whole, none, Nat.zero_mul]
        subst empty
        cases negative with
        | false => exact .inl (by simp)
        | true => exact .inr ⟨rfl, by simp [zero]⟩
      · exact .inl (by simp [none])

theorem toInt?_zero (negative : Bool) : (zero negative).toInt? = some 0 := by
  rw [zero, toInt?, if_pos (Nat.zero_mod _), Nat.zero_div]
  cases negative <;> rfl

theorem toJson_cases (n : Number) : n.toJson = .null ∨ ∃ m, n.toJson = .number m := by
  cases whole : n.toInt? with
  | some i =>
      by_cases small : i.natAbs ≤ safeInteger
      · exact .inr ⟨.integer i, by simp [toJson, whole, small]⟩
      · exact .inr ⟨.binary n, by simp [toJson, whole, small]⟩
  | none => cases n <;> simp [toJson, whole]

/-- The JSON number of a number is that of the number it is read as. -/
theorem toJson_toNumber {n : Number} {m : JsonNumber} (h : n.toJson = .number m) :
    m.toNumber.toJson = .number m := by
  cases whole : n.toInt? with
  | some i =>
      by_cases small : i.natAbs ≤ safeInteger
      · have form : m = .integer i := by
          simpa [toJson, whole, small, eq_comm] using h
        subst form
        obtain same | ⟨rfl, zero⟩ := ofInt_toInt? whole
        · rw [JsonNumber.toNumber, same, h]
        · rw [toInt?_zero] at whole
          cases whole
          simp [JsonNumber.toNumber, zero, toJson, toInt?_zero, safeInteger]
      · have form : m = .binary n := by
          simpa [toJson, whole, small, eq_comm] using h
        rw [form, JsonNumber.toNumber, h, form]
  | none =>
      have form : m = .binary n := by
        cases n <;> simp_all [toJson, eq_comm]
      rw [form, JsonNumber.toNumber, h, form]

end Number

namespace Value

theorem itemsOfJson_eq_map (items : List Json) : itemsOfJson items = items.map ofJson := by
  induction items with
  | nil => rfl
  | cons j r ih => rw [itemsOfJson, ih, List.map_cons]

theorem membersOfJson_eq_map (members : List (String × Json)) :
    membersOfJson members = members.map fun m => (m.1, ofJson m.2) := by
  induction members with
  | nil => rfl
  | cons m r ih => rw [membersOfJson, ih, List.map_cons]

theorem itemsToJson_eq_map (items : List Value) :
    itemsToJson items = items.map fun v => v.toJson?.getD .null := by
  induction items with
  | nil => rfl
  | cons v r ih => rw [itemsToJson, ih, List.map_cons]

theorem membersToJson_eq_filterMap (members : Record) :
    membersToJson members = members.filterMap fun m => m.2.toJson?.map fun j => (m.1, j) := by
  induction members with
  | nil => rfl
  | cons m r ih =>
      rw [membersToJson, ih, List.filterMap_cons]
      cases m.2.toJson? <;> rfl

inductive Plain : Value → Prop
  | null : Plain .null
  | bool (b : Bool) : Plain (.bool b)
  | number (n : Number) : Plain (.number n)
  | string (s : String) : Plain (.string s)
  | sequence {items : List Value} (h : ∀ item ∈ items, Plain item) : Plain (.sequence items)
  | mapping {members : Record} (h : ∀ m ∈ members, Plain m.2) : Plain (.mapping members)

theorem ofJson_plain (j : Json) : (ofJson j).Plain := by
  induction j using Json.induction with
  | null => exact .null
  | bool b => exact .bool b
  | number n => exact .number _
  | string s => exact .string s
  | array items ih =>
      rw [ofJson, itemsOfJson_eq_map]
      exact .sequence (List.forall_mem_map.2 ih)
  | object members ih =>
      rw [ofJson, membersOfJson_eq_map]
      exact .mapping (List.forall_mem_map.2 ih)

theorem Plain.exists_toJson? {v : Value} (h : v.Plain) : ∃ j, v.toJson? = some j := by
  cases h <;> exact ⟨_, by rw [toJson?]⟩

theorem Plain.member {v : Value} (h : v.Plain) (key : String) :
    v.member key = .undefined ∨ (v.member key).Plain := by
  cases h with
  | @sequence items plain =>
      rw [member_sequence]
      cases found : (position? key).bind fun i => items[i]? with
      | none => exact .inl rfl
      | some item =>
          obtain ⟨i, _, at_i⟩ := Option.bind_eq_some_iff.1 found
          exact .inr (plain item (List.mem_of_getElem? at_i))
  | @mapping members plain =>
      rw [member_mapping]
      cases found : members.lookup key with
      | none => exact .inl rfl
      | some v =>
          obtain ⟨before, after, split, _⟩ := List.lookup_eq_some_iff.1 found
          exact .inr (plain (key, v) (by simp [split]))
  | null | bool | number | string => exact .inl rfl

/-- The JSON form of a value is that of the value it is read as, whatever is lost on the way. -/
theorem toJson?_ofJson {v : Value} {j : Json} (h : v.toJson? = some j) :
    (ofJson j).toJson? = some j := by
  induction v using Value.induction generalizing j with
  | undefined | function => cases h
  | null | bool | string => cases h; rfl
  | number n =>
      rw [toJson?, Option.some_inj] at h
      obtain none | ⟨m, some⟩ := n.toJson_cases
      · rw [← h, none]
        rfl
      · rw [← h, some, ofJson, toJson?, Number.toJson_toNumber some]
  | custom _ _ ih => exact ih h
  | sequence items ih =>
      cases h
      rw [ofJson, toJson?, itemsOfJson_eq_map, itemsToJson_eq_map, itemsToJson_eq_map, List.map_map,
        List.map_map]
      congr 2
      refine List.map_congr_left fun item mem => ?_
      cases form : item.toJson? with
      | none => simp [form, ofJson, toJson?]
      | some j => simp [form, ih item mem form]
  | mapping members ih =>
      cases h
      rw [ofJson, toJson?, membersOfJson_eq_map, membersToJson_eq_filterMap,
        membersToJson_eq_filterMap, List.filterMap_map, List.filterMap_filterMap]
      congr 2
      refine List.filterMap_congr fun m mem => ?_
      cases form : m.2.toJson? with
      | none => rfl
      | some j => simp [ih m mem form]

def reread (v : Value) : Value :=
  (v.toJson?.map ofJson).getD .undefined

theorem reread_of_toJson? {v : Value} {j : Json} (h : v.toJson? = some j) :
    v.reread = ofJson j := by
  simp [reread, h]

theorem reread_sequence {items : List Value} (h : ∀ item ∈ items, item.Plain) :
    reread (.sequence items) = .sequence (items.map reread) := by
  rw [reread_of_toJson? (by rw [toJson?]), ofJson, itemsOfJson_eq_map, itemsToJson_eq_map,
    List.map_map]
  congr 1
  refine List.map_congr_left fun item mem => ?_
  obtain ⟨j, form⟩ := (h item mem).exists_toJson?
  simp [reread, form]

theorem reread_mapping {members : Record} (h : ∀ m ∈ members, m.2.Plain) :
    reread (.mapping members) = .mapping (members.map fun m => (m.1, m.2.reread)) := by
  rw [reread_of_toJson? (by rw [toJson?]), ofJson, membersOfJson_eq_map,
    membersToJson_eq_filterMap]
  congr 1
  induction members with
  | nil => rfl
  | cons m r ih =>
      obtain ⟨first, rest⟩ := List.forall_mem_cons.1 h
      obtain ⟨j, form⟩ := first.exists_toJson?
      rw [List.filterMap_cons, form, Option.map_some, List.map_cons, ih rest, List.map_cons,
        reread_of_toJson? form]

theorem reread_number_of_finite {n : Number} (h : n.isFinite = true) :
    reread (.number n) = .number n ∨
      (n = .zero true ∧ reread (.number n) = .number (.zero false)) := by
  rw [reread_of_toJson? (by rw [toJson?])]
  unfold Number.toJson
  cases whole : n.toInt? with
  | some i =>
      by_cases small : i.natAbs ≤ Number.safeInteger
      · simp only [small, if_true, ofJson, JsonNumber.toNumber]
        obtain same | ⟨minus, zero⟩ := Number.ofInt_toInt? whole
        · exact .inl (congrArg Value.number same)
        · exact .inr ⟨minus, congrArg Value.number zero⟩
      · exact .inl (by simp only [small, if_false, ofJson, JsonNumber.toNumber])
  | none =>
      cases n with
      | finite => exact .inl rfl
      | nan | infinite => cases h

theorem reread_number_of_not_finite {n : Number} (h : n.isFinite = false) :
    reread (.number n) = .null := by
  cases n with
  | finite => cases h
  | nan | infinite => rfl

theorem reread_member {v : Value} (h : v.Plain) (key : String) :
    v.reread.member key = (v.member key).reread := by
  cases h with
  | @sequence items plain =>
      rw [reread_sequence plain, member_sequence, member_sequence]
      cases position? key with
      | none => rfl
      | some i =>
          rw [Option.bind_some, Option.bind_some, List.getElem?_map]
          cases items[i]? <;> rfl
  | @mapping members plain =>
      rw [reread_mapping plain, member_mapping, member_mapping, Members.lookup_map]
      cases members.lookup key <;> rfl
  | number n =>
      cases finite : n.isFinite with
      | true =>
          obtain same | ⟨_, same⟩ := reread_number_of_finite finite <;> rw [same] <;> rfl
      | false => rw [reread_number_of_not_finite finite]; rfl
  | null | bool | string => rfl

end Value

end RecordSchema
