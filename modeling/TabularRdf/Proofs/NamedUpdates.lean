import Mathlib.Data.List.Nodup
import TabularRdf.Named

/-! Named values entered one after the other. What is found under a name afterwards is what was entered there
last, or else what was there before. -/
namespace TabularRdf.Named

variable {α : Type} {table : Named α} {name : String}

theorem setAllOther {entries : Named α} (absent : name ∉ entries.map Prod.fst) :
    (table.setAll entries).lookup name = table.lookup name := by
  induction entries generalizing table with
  | nil => rfl
  | cons entry rest ih =>
    rw [List.map_cons, List.mem_cons, not_or] at absent
    exact (ih absent.2).trans (lookupOther absent.1 entry.2 table)

theorem setAllOf {entries : Named α} (distinct : (entries.map Prod.fst).Nodup) {value : α}
    (mem : (name, value) ∈ entries) : (table.setAll entries).lookup name = some value := by
  induction entries generalizing table with
  | nil => contradiction
  | cons entry rest ih =>
    obtain ⟨fresh, later⟩ := List.nodup_cons.mp distinct
    rcases List.mem_cons.mp mem with rfl | inside
    · exact (setAllOther fresh).trans (lookupSelf name value table)
    · exact ih later inside

theorem setAllOrigin {entries : Named α} {value : α}
    (found : (table.setAll entries).lookup name = some value) :
    (name, value) ∈ entries ∨ table.lookup name = some value := by
  induction entries generalizing table with
  | nil => exact .inr found
  | cons entry rest ih =>
    obtain ⟨other, set⟩ := entry
    have entered : ((table.set other set).setAll rest).lookup name = some value := found
    rcases ih entered with later | before
    · exact .inl (List.mem_cons_of_mem _ later)
    · by_cases same : name = other
      · subst same
        rw [lookupSelf] at before
        cases Option.some.inj before
        exact .inl List.mem_cons_self
      · rw [lookupOther same] at before
        exact .inr before

theorem setAllKnown {entries : Named α} (listed : name ∈ entries.map Prod.fst) :
    ∃ value, (table.setAll entries).lookup name = some value := by
  induction entries generalizing table with
  | nil => contradiction
  | cons entry rest ih =>
    obtain ⟨other, value⟩ := entry
    by_cases later : name ∈ rest.map Prod.fst
    · exact ih later
    · cases (List.mem_cons.mp listed).resolve_right later
      exact ⟨value, (setAllOther later).trans (lookupSelf other value table)⟩

theorem foundListed {entries : Named α} {value : α} (found : entries.lookup name = some value) :
    (name, value) ∈ entries := by
  obtain ⟨before, after, whole, _⟩ := List.lookup_eq_some_iff.mp found
  exact whole ▸ List.mem_append_right _ List.mem_cons_self

theorem unlisted {entries : Named α} : entries.lookup name = none ↔ name ∉ entries.map Prod.fst := by
  rw [List.lookup_eq_none_iff, List.mem_map, not_exists]
  exact ⟨fun other entry found => absurd found.2.symm (bne_iff_ne.mp (other entry found.1)),
    fun absent entry mem => bne_iff_ne.mpr fun same => absent entry ⟨mem, same.symm⟩⟩

theorem listedFound {entries : Named α} (listed : name ∈ entries.map Prod.fst) :
    ∃ value, entries.lookup name = some value :=
  Option.ne_none_iff_exists'.mp fun lost => unlisted.mp lost listed

theorem lookupOf {entries : Named α} (distinct : (entries.map Prod.fst).Nodup) {entry : String × α}
    (listed : entry ∈ entries) : entries.lookup entry.1 = some entry.2 := by
  induction entries with
  | nil => contradiction
  | cons first rest ih =>
    obtain ⟨fresh, later⟩ := List.nodup_cons.mp distinct
    rcases List.mem_cons.mp listed with rfl | inside
    · exact List.lookup_cons_self
    · have other : (entry.1 == first.1) = false :=
        beq_eq_false_iff_ne.mpr fun same => fresh (same ▸ List.mem_map_of_mem inside)
      rw [List.lookup_cons, other]
      exact ih later inside

theorem namesSet (value : α) (entries : Named α) : (entries.set name value).map Prod.fst =
    if name ∈ entries.map Prod.fst then entries.map Prod.fst else entries.map Prod.fst ++ [name] := by
  induction entries with
  | nil => rfl
  | cons entry rest ih =>
    obtain ⟨other, before⟩ := entry
    by_cases here : other = name
    · simp [set, here]
    · rw [set, if_neg here, List.map_cons, ih, List.map_cons]
      by_cases later : name ∈ rest.map Prod.fst
      · rw [if_pos later, if_pos (List.mem_cons_of_mem _ later)]
      · have absent : name ∉ other :: rest.map Prod.fst := fun mem => later ((List.mem_cons.mp mem).resolve_left
          (Ne.symm here))
        rw [if_neg later, if_neg absent, List.cons_append]

theorem lookupWithout {other : String} (apart : other ≠ name) :
    (table.filter fun entry => entry.1 ≠ name).lookup other = table.lookup other := by
  induction table with
  | nil => rfl
  | cons entry rest ih =>
    obtain ⟨one, value⟩ := entry
    by_cases here : one = name
    · subst here
      have missed : (other == one) = false := beq_eq_false_iff_ne.mpr apart
      simp only [List.filter_cons, ne_eq, not_true_eq_false, decide_false, Bool.false_eq_true, if_false,
        List.lookup_cons, missed, ih]
    · simp only [List.filter_cons, ne_eq, here, not_false_eq_true, decide_true, if_true, List.lookup_cons, ih]

section

variable {β : Type}

def mapValues (f : α → β) (table : Named α) : Named β := table.map fun (name, value) => (name, f value)

theorem lookupMapped (f : α → β) (table : Named α) : (table.mapValues f).lookup name = (table.lookup name).map f := by
  induction table with
  | nil => rfl
  | cons entry rest ih =>
    obtain ⟨one, value⟩ := entry
    rw [mapValues, List.map_cons, List.lookup_cons, List.lookup_cons]
    split
    · rfl
    · exact ih

theorem setMapped (f : α → β) (value : α) (table : Named α) :
    (table.set name value).mapValues f = (table.mapValues f).set name (f value) := by
  induction table with
  | nil => rfl
  | cons entry rest ih =>
    obtain ⟨one, other⟩ := entry
    by_cases here : one = name
    · simp [mapValues, set, here]
    · simpa [mapValues, set, here] using ih

theorem setAllMapped (f : α → β) (table entries : Named α) :
    (table.setAll entries).mapValues f = (table.mapValues f).setAll (entries.mapValues f) := by
  induction entries generalizing table with
  | nil => rfl
  | cons entry rest ih =>
    exact (ih _).trans (congrArg (fun t => setAll t (mapValues f rest)) (setMapped f entry.2 table))

end

end TabularRdf.Named
