import Mathlib.Data.List.Nodup
import TabularRdf.Mapping.Plan
import TabularRdf.Proofs.Loading

/-! The graph of quoted references. Loading it enters every reference of every map in both tables, each
pair once; it fails only at a reference that names none of the maps, with that reference. -/
namespace TabularRdf.Mapping.Plan

variable {maps : List TriplesMap}

theorem positionFound {name : String} {j : Nat} (h : position? maps name = some j) :
    ∃ m, maps[j]? = some m ∧ m.name = name := by
  obtain ⟨⟨m, k⟩, last, same⟩ := Option.map_eq_some_iff.mp h
  have member := List.mem_of_getLast? last
  obtain ⟨inside, named⟩ := List.mem_filter.mp member
  cases same
  exact ⟨m, List.mem_zipIdx_iff_getElem?.mp inside, by simpa using named⟩

theorem positionLost {name : String} :
    position? maps name = none ↔ name ∉ maps.map TriplesMap.name := by
  constructor
  · intro lost mem
    obtain ⟨m, member, named⟩ := List.mem_map.mp mem
    obtain ⟨i, atPlace⟩ := List.mem_iff_getElem?.mp member
    have kept : (m, i) ∈ maps.zipIdx.filter fun entry => entry.1.name = name :=
      List.mem_filter.mpr ⟨List.mem_zipIdx_iff_getElem?.mpr atPlace, by simpa using named⟩
    simp only [position?, Option.map_eq_none_iff, List.getLast?_eq_none_iff] at lost
    exact List.ne_nil_of_mem kept lost
  · intro absent
    cases h : position? maps name with
    | none => rfl
    | some j =>
      obtain ⟨m, atPlace, named⟩ := positionFound h
      exact absurd (List.mem_map.mpr ⟨m, List.mem_of_getElem? atPlace, named⟩) absent

theorem positionBound {name : String} {j : Nat} (h : position? maps name = some j) :
    j < maps.length := by
  obtain ⟨m, atPlace, _⟩ := positionFound h
  exact (List.getElem?_eq_some_iff.mp atPlace).1

theorem equalPlaces (distinct : (maps.map TriplesMap.name).Nodup) {i j : Nat} {m n : TriplesMap}
    (left : maps[i]? = some m) (right : maps[j]? = some n) (same : m.name = n.name) : i = j := by
  have bound := (List.getElem?_eq_some_iff.mp left).1
  exact (List.getElem?_inj (by simpa using bound) distinct).mp (by simp [left, right, same])

theorem positionOf (distinct : (maps.map TriplesMap.name).Nodup) {m : TriplesMap} {j : Nat}
    (atPlace : maps[j]? = some m) : position? maps m.name = some j := by
  cases h : position? maps m.name with
  | none =>
    exact absurd (List.mem_map_of_mem (List.mem_of_getElem? atPlace)) (positionLost.mp h)
  | some k =>
    obtain ⟨n, found, named⟩ := positionFound h
    rw [equalPlaces distinct found atPlace named]

def Edge (maps : List TriplesMap) (i j : Nat) : Prop :=
  ∃ m, maps[i]? = some m ∧ ∃ q ∈ m.quotedRefs, position? maps q.mapping = some j

structure Graph.Holds (g : Graph) (size : Nat) (edge : Nat → Nat → Prop) : Prop where
  places : g.dependencies.length = size ∧ g.dependents.length = size
  quoted : ∀ i j, j ∈ g.dependenciesOf i ↔ edge i j
  quoting : ∀ i j, i ∈ g.dependentsOf j ↔ edge i j
  quotedOnce : ∀ i, (g.dependenciesOf i).Nodup
  quotingOnce : ∀ j, (g.dependentsOf j).Nodup

section

variable {table : List (List Nat)} {i : Nat} (bound : i < table.length)

include bound

theorem modifiedAt (x a : Nat) :
    (table.modify i (· ++ [x]))[a]?.getD [] =
      if a = i then table[i]?.getD [] ++ [x] else table[a]?.getD [] := by
  split
  · rename_i same
    subst a
    simp [bound]
  · rename_i other
    rw [List.getElem?_modify_ne _ _ (Ne.symm other)]

theorem memModified {x a y : Nat} :
    y ∈ (table.modify i (· ++ [x]))[a]?.getD [] ↔ y ∈ table[a]?.getD [] ∨ a = i ∧ y = x := by
  rw [modifiedAt bound]
  split
  · rename_i same
    subst a
    simp
  · rename_i other
    simp [other]

theorem modifiedOnce {x : Nat} (once : ∀ a : Nat, (table[a]?.getD []).Nodup)
    (fresh : x ∉ table[i]?.getD []) (a : Nat) : ((table.modify i (· ++ [x]))[a]?.getD []).Nodup := by
  rw [modifiedAt bound]
  split
  · simpa using (once i).concat fresh
  · exact once a

end

namespace Graph.Holds

theorem empty (size : Nat) : (Graph.empty size).Holds size fun _ _ => False := by
  have none (i : Nat) : (List.replicate size ([] : List Nat))[i]?.getD [] = [] := by
    rw [List.getElem?_replicate]; split <;> rfl
  exact ⟨by simp [Graph.empty], by simp [Graph.dependenciesOf, Graph.empty, none],
    by simp [Graph.dependentsOf, Graph.empty, none], by simp [Graph.dependenciesOf, Graph.empty, none],
    by simp [Graph.dependentsOf, Graph.empty, none]⟩

theorem congr {g : Graph} {size : Nat} {edge other : Nat → Nat → Prop} (held : g.Holds size edge)
    (same : ∀ i j, edge i j ↔ other i j) : g.Holds size other :=
  ⟨held.places, fun i j => (held.quoted i j).trans (same i j),
    fun i j => (held.quoting i j).trans (same i j), held.quotedOnce, held.quotingOnce⟩

theorem link {g : Graph} {size : Nat} {edge : Nat → Nat → Prop} (held : g.Holds size edge) {i j : Nat}
    (left : i < size) (right : j < size) :
    (g.link i j).Holds size fun a b => edge a b ∨ a = i ∧ b = j := by
  unfold Graph.link
  split
  · rename_i known
    refine held.congr fun a b => ⟨Or.inl, ?_⟩
    rintro (old | ⟨rfl, rfl⟩)
    · exact old
    · exact (held.quoted _ _).mp known
  · rename_i fresh
    have back : i ∉ g.dependentsOf j := fun mem =>
      fresh ((held.quoted i j).mpr ((held.quoting i j).mp mem))
    have leftIn : i < g.dependencies.length := held.places.1.symm ▸ left
    have rightIn : j < g.dependents.length := held.places.2.symm ▸ right
    constructor
    · simpa using held.places
    · intro a b
      rw [← held.quoted a b]
      exact memModified leftIn
    · intro a b
      rw [← held.quoting a b, and_comm]
      exact memModified rightIn
    · exact modifiedOnce leftIn held.quotedOnce fresh
    · exact modifiedOnce rightIn held.quotingOnce back

end Graph.Holds

theorem linkedMap {m : TriplesMap} {i : Nat} (left : i < maps.length) {qs : List QuotedRef} {g h : Graph}
    {edge : Nat → Nat → Prop} (held : g.Holds maps.length edge)
    (loaded : qs.foldlM (linkQuote maps m i) g = .ok h) :
    h.Holds maps.length fun a b => edge a b ∨ a = i ∧ ∃ q ∈ qs, position? maps q.mapping = some b := by
  induction qs generalizing g edge with
  | nil => cases Except.ok.inj loaded; exact held.congr (by simp)
  | cons q qs ih =>
    rw [List.foldlM_cons] at loaded
    obtain ⟨next, head, tail⟩ := Loading.boundOk.mp loaded
    unfold linkQuote at head
    cases found : position? maps q.mapping with
    | none => simp [found] at head
    | some j =>
      simp only [found] at head
      cases Except.ok.inj head
      refine (ih (held.link left (positionBound found)) tail).congr fun a b => ?_
      simp only [List.exists_mem_cons_iff, found, Option.some.injEq]
      tauto

theorem linkedMaps {entries : List (TriplesMap × Nat)} {g h : Graph} {edge : Nat → Nat → Prop}
    (held : g.Holds maps.length edge) (inside : ∀ e ∈ entries, e.2 < maps.length)
    (loaded : entries.foldlM (fun g (m, i) => m.quotedRefs.foldlM (linkQuote maps m i) g) g = .ok h) :
    h.Holds maps.length fun a b =>
      edge a b ∨ ∃ m, (m, a) ∈ entries ∧ ∃ q ∈ m.quotedRefs, position? maps q.mapping = some b := by
  induction entries generalizing g edge with
  | nil => cases Except.ok.inj loaded; exact held.congr (by simp)
  | cons e rest ih =>
    obtain ⟨m, i⟩ := e
    rw [List.foldlM_cons] at loaded
    obtain ⟨next, head, tail⟩ := Loading.boundOk.mp loaded
    have entered := linkedMap (inside _ List.mem_cons_self) held head
    refine (ih entered (fun e mem => inside e (List.mem_cons_of_mem _ mem)) tail).congr fun a b => ?_
    simp only [List.mem_cons, Prod.mk.injEq]
    constructor
    · rintro ((old | ⟨rfl, refs⟩) | ⟨n, mem, refs⟩)
      · exact .inl old
      · exact .inr ⟨m, .inl ⟨rfl, rfl⟩, refs⟩
      · exact .inr ⟨n, .inr mem, refs⟩
    · rintro (old | ⟨n, ⟨rfl, rfl⟩ | mem, refs⟩)
      · exact .inl (.inl old)
      · exact .inl (.inr ⟨rfl, refs⟩)
      · exact .inr ⟨n, mem, refs⟩

theorem graphHolds {g : Graph} (loaded : graphOf maps = .ok g) : g.Holds maps.length (Edge maps) := by
  have inside : ∀ e ∈ maps.zipIdx, e.2 < maps.length := fun e mem =>
    (List.getElem?_eq_some_iff.mp (List.mem_zipIdx_iff_getElem?.mp mem)).1
  refine (linkedMaps (.empty _) inside loaded).congr fun i j => ?_
  simp only [false_or, Edge, List.mem_zipIdx_iff_getElem?]

def Known (maps : List TriplesMap) : Prop :=
  ∀ m ∈ maps, ∀ q ∈ m.quotedRefs, q.mapping ∈ maps.map TriplesMap.name

theorem graphKnown {g : Graph} (loaded : graphOf maps = .ok g) : Known maps := by
  intro m member q reference
  obtain ⟨i, atPlace⟩ := List.mem_iff_getElem?.mp member
  obtain ⟨before, after, linked⟩ :=
    Loading.foldedEach loaded (List.mem_zipIdx_iff_getElem? (x := (m, i)).mpr atPlace)
  obtain ⟨_, _, entered⟩ := Loading.foldedEach linked reference
  unfold linkQuote at entered
  cases found : position? maps q.mapping with
  | none => simp [found] at entered
  | some j =>
    obtain ⟨n, there, named⟩ := positionFound found
    exact List.mem_map.mpr ⟨n, List.mem_of_getElem? there, named⟩

theorem graphUnknown {e : MappingError} (failed : graphOf maps = .error e) :
    ∃ m ∈ maps, ∃ q ∈ m.quotedRefs, q.mapping ∉ maps.map TriplesMap.name ∧
      e = .unknownMapping m.name q.mapping := by
  obtain ⟨⟨m, i⟩, member, g, linked⟩ := Loading.foldedFailure failed
  obtain ⟨q, reference, _, refused⟩ := Loading.foldedFailure linked
  have atPlace : maps[i]? = some m := List.mem_zipIdx_iff_getElem?.mp member
  refine ⟨m, List.mem_of_getElem? atPlace, q, reference, ?_⟩
  unfold linkQuote at refused
  cases found : position? maps q.mapping with
  | some j => simp [found] at refused
  | none =>
    simp only [found] at refused
    exact ⟨positionLost.mp found, (Except.error.inj refused).symm⟩

end TabularRdf.Mapping.Plan
