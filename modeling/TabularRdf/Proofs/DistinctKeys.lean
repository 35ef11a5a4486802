import Mathlib.Data.List.Nodup
import TabularRdf.Json.Reader

/-! Values in which no object holds a key twice. Reading a text gives no other value, for a key that comes
again takes the place of the first. -/
namespace TabularRdf.Named

variable {α : Type} {name : String} {value : α}

theorem memSet {entries : Named α} {entry : String × α} (mem : entry ∈ set name value entries) :
    entry = (name, value) ∨ entry ∈ entries := by
  induction entries with
  | nil => exact .inl (List.mem_singleton.mp mem)
  | cons first rest ih =>
    obtain ⟨n, v⟩ := first
    unfold set at mem
    split at mem
    · rename_i same
      rcases List.mem_cons.mp mem with rfl | inside
      · exact .inl (by rw [same])
      · exact .inr (List.mem_cons_of_mem _ inside)
    · rcases List.mem_cons.mp mem with rfl | inside
      · exact .inr List.mem_cons_self
      · exact (ih inside).imp_right (List.mem_cons_of_mem _)

theorem setDistinct {entries : Named α} (distinct : (entries.map Prod.fst).Nodup) :
    ((set name value entries).map Prod.fst).Nodup := by
  induction entries with
  | nil => simp [set]
  | cons first rest ih =>
    obtain ⟨n, v⟩ := first
    obtain ⟨fresh, tail⟩ := List.nodup_cons.mp distinct
    unfold set
    split
    · exact distinct
    · rename_i other
      refine List.nodup_cons.mpr ⟨?_, ih tail⟩
      intro again
      obtain ⟨entry, mem, same⟩ := List.mem_map.mp again
      rcases memSet mem with rfl | inside
      · exact other same.symm
      · exact fresh (List.mem_map.mpr ⟨entry, inside, same⟩)

end TabularRdf.Named

namespace TabularRdf.Json

inductive Distinct : Json → Prop where
  | null : Distinct .null
  | bool (value : Bool) : Distinct (.bool value)
  | num (value : Number) : Distinct (.num value)
  | str (value : String) : Distinct (.str value)
  | arr {items : List Json} (each : ∀ item ∈ items, Distinct item) : Distinct (.arr items)
  | obj {fields : Fields} (keys : (fields.map Prod.fst).Nodup)
      (each : ∀ entry ∈ fields, Distinct entry.2) : Distinct (.obj fields)

@[simp] theorem strDistinct (s : String) : (Json.str s).Distinct := .str s

@[simp] theorem arrDistinct {items : List Json} : (Json.arr items).Distinct ↔ ∀ item ∈ items, item.Distinct :=
  ⟨fun (.arr each) => each, .arr⟩

@[simp] theorem objDistinct {fields : Fields} : (Json.obj fields).Distinct ↔
    (fields.map Prod.fst).Nodup ∧ ∀ entry ∈ fields, entry.2.Distinct :=
  ⟨fun (.obj keys each) => ⟨keys, each⟩, fun ⟨keys, each⟩ => .obj keys each⟩

theorem wordDistinct {word : String} {value : Json} {cs : List Char} {read : Json × List Char}
    (distinct : value.Distinct) (given : readWord word value cs = some read) : read.1.Distinct := by
  unfold readWord at given
  dsimp only at given
  split at given
  · cases Option.some.inj given
    exact distinct
  · contradiction

theorem fieldDistinct {fields : Fields} {key : String} {value : Json}
    (before : (Json.obj fields).Distinct) (distinct : value.Distinct) :
    (Json.obj (Named.set key value fields)).Distinct := by
  cases before with
  | obj keys each =>
    refine .obj (Named.setDistinct keys) fun entry mem => ?_
    rcases Named.memSet mem with rfl | inside
    · exact distinct
    · exact each entry inside

/- What the three readers keep when they have some fuel: they call each other with less of it. -/
structure ReadsDistinct (fuel : Nat) : Prop where
  value : ∀ depth cs read, readValue fuel depth cs = some read → read.1.Distinct
  items : ∀ depth cs read, readItems fuel depth cs = some read → ∀ item ∈ read.1, item.Distinct
  fields : ∀ depth before cs read, readFields fuel depth before cs = some read →
    (Json.obj before).Distinct → (Json.obj read.1).Distinct

theorem emptyDistinct : (Json.obj []).Distinct := .obj List.nodup_nil (by simp)

section

variable {fuel depth : Nat} {cs : List Char} (less : ReadsDistinct fuel)
include less

theorem valueDistinct {read : Json × List Char} (given : readValue (fuel + 1) depth cs = some read) :
    read.1.Distinct := by
  unfold readValue at given
  split at given
  · obtain ⟨_, _, rfl⟩ := Option.map_eq_some_iff.mp given
    exact .str _
  · split at given
    · contradiction
    · split at given
      · cases Option.some.inj given
        exact .arr (by simp)
      · obtain ⟨found, inside, rfl⟩ := Option.map_eq_some_iff.mp given
        exact .arr (less.items _ _ _ inside)
  · split at given
    · contradiction
    · split at given
      · cases Option.some.inj given
        exact emptyDistinct
      · obtain ⟨found, inside, rfl⟩ := Option.map_eq_some_iff.mp given
        exact less.fields _ _ _ _ inside emptyDistinct
  · exact wordDistinct .null given
  · exact wordDistinct (.bool true) given
  · exact wordDistinct (.bool false) given
  · obtain ⟨_, _, rfl⟩ := Option.map_eq_some_iff.mp given
    exact .num _

theorem itemsDistinct {read : List Json × List Char}
    (given : readItems (fuel + 1) depth cs = some read) : ∀ item ∈ read.1, item.Distinct := by
  unfold readItems at given
  split at given
  · contradiction
  · rename_i item rest first
    have head := less.value _ _ _ first
    split at given
    · cases Option.some.inj given
      simpa using head
    · obtain ⟨found, inside, rfl⟩ := Option.map_eq_some_iff.mp given
      exact List.forall_mem_cons.mpr ⟨head, less.items _ _ _ inside⟩
    · contradiction

theorem fieldsDistinct {before : Fields} {read : Fields × List Char}
    (given : readFields (fuel + 1) depth before cs = some read) (distinct : (Json.obj before).Distinct) :
    (Json.obj read.1).Distinct := by
  unfold readFields at given
  split at given
  · split at given
    · contradiction
    · split at given
      · split at given
        · contradiction
        · rename_i value rest first
          have head := less.value _ _ _ first
          dsimp only at given
          split at given
          · cases Option.some.inj given
            exact fieldDistinct distinct head
          · exact less.fields _ _ _ _ given (fieldDistinct distinct head)
          · contradiction
      · contradiction
  · contradiction

end

theorem readsDistinct (fuel : Nat) : ReadsDistinct fuel := by
  induction fuel with
  | zero =>
    refine ⟨?_, ?_, ?_⟩
    · intro _ _ _ given
      simp [readValue] at given
    · intro _ _ _ given
      simp [readItems] at given
    · intro _ _ _ _ given
      simp [readFields] at given
  | succ fuel ih =>
    exact ⟨fun _ _ _ => valueDistinct ih, fun _ _ _ => itemsDistinct ih,
      fun _ _ _ _ => fieldsDistinct ih⟩

theorem readDistinct {text : String} {value : Json} (given : read? text = some value) : value.Distinct := by
  simp only [read?, readWithin?] at given
  split at given
  · rename_i found rest first
    split at given
    · cases Option.some.inj given
      exact (readsDistinct _).value _ _ _ first
    · contradiction
  · contradiction

end TabularRdf.Json
