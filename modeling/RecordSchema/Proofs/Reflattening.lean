import RecordSchema.Container.Query
import RecordSchema.Proofs.Collisions
import RecordSchema.Proofs.Fallible

namespace RecordSchema

/-- No key is repeated, and nothing is left to flatten. -/
structure Flat (entries : Record) : Prop where
  distinct : (Members.names entries).Nodup
  leaves : ∀ entry ∈ entries, entry.2.isContainer = false

namespace Flat

variable {entries : Record}

theorem leavesAt_none (h : Flat entries) : (Value.mapping entries).leavesAt none = entries := by
  have alone : ∀ m ∈ entries,
      (Value.hang m.1 m.2 m.2.leaves).map (fun l => (Value.leafKey none l.1, l.2)) = [m] := by
    intro m mem
    rw [Value.hang, h.leaves m mem, if_neg Bool.false_ne_true]
    rfl
  rw [Value.leavesAt, Value.leaves_eq_flatMap, List.map_flatMap, Value.entries,
    List.flatMap_congr alone, List.flatMap_singleton']

theorem flatten_eq (h : Flat entries) : (Value.mapping entries).flatten none = entries := by
  rw [Value.flatten_eq_leavesAt, h.leavesAt_none]
  exact Members.insertAll_of_nodup h.distinct

end Flat

theorem Value.flat_flatten (base : Option String) (v : Value) : Flat (v.flatten base) := by
  refine ⟨nodup_names_flatten base v, fun entry mem => ?_⟩
  obtain ⟨path, leafAt⟩ := exists_leafAt_of_mem_flatten mem
  exact leafAt.leaf_not_container

theorem Factory.eq_of_wrap {factory : Factory} {base : Option String} {record : Value}
    {c : Container} (made : factory.wrap base record = .ok c) :
    c = ⟨record, factory.schema, factory.schemaAt base, Path.base? base, record.flatten base⟩ := by
  simp only [wrap] at made
  split at made
  · obtain ⟨-, -, made⟩ := Fallible.bind_eq_ok.1 made
    exact (Except.ok.inj made).symm
  · exact (Except.ok.inj made).symm

namespace Container

/-- Two containers that no question about their leaves tells apart. -/
structure LeavesAlike (c d : Container) : Prop where
  entries : c.flat = d.flat
  keys : c.keys = d.keys
  values : c.values = d.values
  size : c.size = d.size
  has : ∀ key, c.has key = d.has key
  includes : ∀ key, c.includes key = d.includes key
  getFlat? : ∀ keys, c.getFlat? keys = d.getFlat? keys

theorem leavesAlike_of_flat {c d : Container} (same : c.flat = d.flat) : LeavesAlike c d := by
  have keys : c.keys = d.keys := by rw [Container.keys, Container.keys, same]
  constructor
  · exact same
  · exact keys
  · rw [values, values, same]
  · rw [size, size, same]
  · intro key
    rw [has, has, same]
  · intro key
    rw [includes, includes, keys]
  · intro keys
    rw [getFlat?, getFlat?, same]

theorem get?_of_member {c : Container} {key : String} {v : Value}
    (found : c.record.get? key = some v) : c.get? key = some v := by
  rw [get?, found]

theorem get?_of_flat {c : Container} (itself : c.record = .mapping c.flat) {key : String}
    {leaf : Value} (entry : c.flat.lookup key = some leaf) : c.get? key = some leaf := by
  apply get?_of_member
  rw [itself]
  exact entry

end Container

/-- Flattening a flat view changes nothing. A container made of a flat view without a schema has the
leaves of each container that the view is of, and finds each leaf by its key. -/
theorem flattening_idempotent (base : Option String) (v : Value) :
    (Value.mapping (v.flatten base)).flatten none = v.flatten base ∧
    ∀ (factory : Factory) (c : Container), factory.wrap base v = .ok c →
      ∃ d, (Factory.mk none).create (.mapping (v.flatten base)) = .ok d ∧ d.LeavesAlike c ∧
        ∀ key leaf, (v.flatten base).lookup key = some leaf → d.get? key = some leaf := by
  have again := (v.flat_flatten base).flatten_eq
  refine ⟨again, fun factory c made => ?_⟩
  let d : Container := ⟨.mapping (v.flatten base), none, none, none,
    (Value.mapping (v.flatten base)).flatten none⟩
  refine ⟨d, rfl, Container.leavesAlike_of_flat ?_, fun key leaf entry => ?_⟩
  · rw [Factory.eq_of_wrap made]
    exact again
  · apply Container.get?_of_flat
    · exact congrArg Value.mapping again.symm
    · rw [← again] at entry
      exact entry

theorem flattening_dotted_again :
    (Value.mapping (Value.dotted.flatten (some "at."))).flatten none =
      Value.dotted.flatten (some "at.") ∧
    ∃ c d, (Factory.mk none).createAt "at." Value.dotted = .ok c ∧
      (Factory.mk none).create (.mapping (Value.dotted.flatten (some "at."))) = .ok d ∧
      d.LeavesAlike c ∧ d.get? "at..a.0" = some (.bool false) := by
  obtain ⟨again, alike⟩ := flattening_idempotent (some "at.") Value.dotted
  obtain ⟨d, made, leaves, found⟩ := alike (Factory.mk none) _ rfl
  exact ⟨again, _, d, rfl, made, leaves, found "at..a.0" (.bool false) rfl⟩

end RecordSchema
