import Mathlib.Data.List.MinMax
import Mathlib.Order.Nat
import TabularRdf.Proofs.Layering

/-! The order of execution, by name. There is a plan exactly when every quoted mapping is known and no
mapping quotes itself in the end; then each map stands one level above the highest map that it quotes. -/
namespace TabularRdf.Mapping.Plan

variable {maps : List TriplesMap}

def Quotes (maps : List TriplesMap) (a b : String) : Prop :=
  ∃ m ∈ maps, m.name = a ∧ ∃ q ∈ m.quotedRefs, q.mapping = b

def Cyclic (maps : List TriplesMap) : Prop := ∃ name, Relation.TransGen (Quotes maps) name name

def levelOf (p : Plan) (name : String) : Nat := rankOf p.levels name

structure Ordered (maps : List TriplesMap) (p : Plan) : Prop where
  once : p.order.Perm (maps.map TriplesMap.name)
  document : ∀ level ∈ p.levels, level.Sublist (maps.map TriplesMap.name)
  earlier : ∀ m ∈ maps, ∀ q ∈ m.quotedRefs, p.levelOf q.mapping < p.levelOf m.name
  height : ∀ m ∈ maps, p.levelOf m.name =
    (m.quotedRefs.map fun q => p.levelOf q.mapping + 1).foldr max 0

theorem namedAt {i : Nat} {m : TriplesMap} (atPlace : maps[i]? = some m) : nameAt maps i = m.name := by
  simp [nameAt, atPlace]

theorem namesInOrder : (List.range maps.length).map (nameAt maps) = maps.map TriplesMap.name := by
  refine List.ext_getElem (by simp) fun i left _ => ?_
  have bound : i < maps.length := by simpa using left
  simp [nameAt, List.getElem?_eq_getElem bound]

theorem edgeQuotes {i j : Nat} (edge : Edge maps i j) : Quotes maps (nameAt maps i) (nameAt maps j) := by
  obtain ⟨m, atPlace, q, reference, found⟩ := edge
  obtain ⟨n, there, named⟩ := positionFound found
  exact ⟨m, List.mem_of_getElem? atPlace, (namedAt atPlace).symm, q, reference,
    by rw [namedAt there, named]⟩

theorem samePlace (distinct : (maps.map TriplesMap.name).Nodup) {i j : Nat} (left : i < maps.length)
    (right : j < maps.length) (same : nameAt maps i = nameAt maps j) : i = j := by
  have first := List.getElem?_eq_getElem left
  have second := List.getElem?_eq_getElem right
  exact equalPlaces distinct first second (by rw [← namedAt first, same, namedAt second])

theorem rankNamed (distinct : (maps.map TriplesMap.name).Nodup) {levels : List (List Nat)}
    (inside : ∀ j ∈ levels.flatten, j < maps.length) {i : Nat} (bound : i < maps.length) :
    rankOf (levels.map fun level => level.map (nameAt maps)) (nameAt maps i) = rankOf levels i := by
  unfold rankOf
  induction levels with
  | nil => rfl
  | cons level rest ih =>
    have here : (level.map (nameAt maps)).contains (nameAt maps i) = level.contains i := by
      rw [Bool.eq_iff_iff, List.contains_iff_mem, List.contains_iff_mem]
      constructor
      · intro mem
        obtain ⟨j, onLevel, same⟩ := List.mem_map.mp mem
        have small := inside j (List.mem_flatten.mpr ⟨level, List.mem_cons_self, onLevel⟩)
        rwa [← samePlace distinct small bound same]
      · exact List.mem_map_of_mem
    rw [List.map_cons, List.findIdx_cons, List.findIdx_cons, here,
      ih fun j mem => inside j (by rw [List.flatten_cons]; exact List.mem_append_right _ mem)]

theorem maxReached {xs : List Nat} {k : Nat} (below : ∀ x ∈ xs, x ≤ k) (reached : k = 0 ∨ k ∈ xs) :
    k = xs.foldr max 0 := by
  refine le_antisymm ?_ (List.max_le_of_forall_le xs k below)
  rcases reached with rfl | mem
  · exact Nat.zero_le _
  · exact List.le_max_of_le mem (le_refl k)

def planOf (maps : List TriplesMap) (levels : List (List Nat)) : Plan :=
  ⟨levels.map fun level => level.map (nameAt maps)⟩

section

variable {g : Graph} {levels : List (List Nat)} (distinct : (maps.map TriplesMap.name).Nodup)
  (held : g.Holds maps.length (Edge maps)) (layered : Layered g maps.length [] levels)
  (all : levels.flatten.Perm (List.range maps.length))

include all in
theorem memPlaced (i : Nat) : i ∈ levels.flatten ↔ i < maps.length := by
  rw [all.mem_iff, List.mem_range]

include all in
theorem placedOnce : (planOf maps levels).order.Perm (maps.map TriplesMap.name) := by
  rw [order, planOf, ← List.map_flatten, ← namesInOrder]
  exact all.map _

include distinct all in
theorem levelOfPlace {i : Nat} {m : TriplesMap} (atPlace : maps[i]? = some m) :
    (planOf maps levels).levelOf m.name = rankOf levels i := by
  rw [← namedAt atPlace]
  exact rankNamed distinct (fun j => (memPlaced all j).mp) (List.getElem?_eq_some_iff.mp atPlace).1

include distinct held in
theorem quotedPlace (known : Known maps) {i : Nat} {m : TriplesMap} (atPlace : maps[i]? = some m)
    {q : QuotedRef} (reference : q ∈ m.quotedRefs) :
    ∃ j ∈ g.dependenciesOf i, ∃ n, maps[j]? = some n ∧ n.name = q.mapping := by
  obtain ⟨n, target, named⟩ := List.mem_map.mp (known m (List.mem_of_getElem? atPlace) q reference)
  obtain ⟨j, there⟩ := List.mem_iff_getElem?.mp target
  have edge : Edge maps i j := ⟨m, atPlace, q, reference, by rw [← named, positionOf distinct there]⟩
  exact ⟨j, (held.quoted i j).mpr edge, n, there, named⟩

include layered all in
theorem dependencyLower {i j : Nat} (bound : i < maps.length) (dependency : j ∈ g.dependenciesOf i) :
    rankOf levels j < rankOf levels i :=
  rankBelow (dependencyEarlier layered ((memPlaced all i).mpr bound) dependency)

include distinct held layered all in
theorem quotedLower (known : Known maps) {m : TriplesMap} (mem : m ∈ maps) {q : QuotedRef}
    (reference : q ∈ m.quotedRefs) :
    (planOf maps levels).levelOf q.mapping < (planOf maps levels).levelOf m.name := by
  obtain ⟨i, atPlace⟩ := List.mem_iff_getElem?.mp mem
  obtain ⟨j, dependency, n, there, named⟩ := quotedPlace distinct held known atPlace reference
  rw [← named, levelOfPlace distinct all there, levelOfPlace distinct all atPlace]
  exact dependencyLower layered all (List.getElem?_eq_some_iff.mp atPlace).1 dependency

include distinct held layered all in
theorem quotedBelow {m : TriplesMap} (mem : m ∈ maps) :
    (planOf maps levels).levelOf m.name = 0 ∨ ∃ q ∈ m.quotedRefs,
      (planOf maps levels).levelOf q.mapping + 1 = (planOf maps levels).levelOf m.name := by
  obtain ⟨i, atPlace⟩ := List.mem_iff_getElem?.mp mem
  have bound := (List.getElem?_eq_some_iff.mp atPlace).1
  rw [levelOfPlace distinct all atPlace]
  refine (dependencyBelow layered ((memPlaced all i).mpr bound)).imp_right ?_
  rintro ⟨j, dependency, step⟩
  obtain ⟨n, there, q, reference, found⟩ := (held.quoted i j).mp dependency
  obtain ⟨target, atTarget, named⟩ := positionFound found
  rw [atPlace] at there
  cases Option.some.inj there
  exact ⟨q, reference, by rw [← named, levelOfPlace distinct all atTarget, step]⟩

include distinct held layered all in
theorem plannedOrdered (known : Known maps) : Ordered maps (planOf maps levels) := by
  refine ⟨placedOnce all, ?_, fun m mem q => quotedLower distinct held layered all known mem, ?_⟩
  · intro level mem
    obtain ⟨places, onLevel, rfl⟩ := List.mem_map.mp mem
    obtain ⟨k, atLevel⟩ := List.mem_iff_getElem?.mp onLevel
    rw [layeredAt layered atLevel, ← namesInOrder]
    exact List.filter_sublist.map _
  · intro m mem
    refine maxReached ?_ ?_
    · intro x listed
      obtain ⟨q, reference, rfl⟩ := List.mem_map.mp listed
      exact quotedLower distinct held layered all known mem reference
    · exact (quotedBelow distinct held layered all mem).imp_right List.mem_map.mpr

end

theorem orderedAcyclic {p : Plan} (ordered : Ordered maps p) : ¬ Cyclic maps := by
  rintro ⟨name, loop⟩
  have down : ∀ {a b : String}, Relation.TransGen (Quotes maps) a b → p.levelOf b < p.levelOf a := by
    intro a b path
    induction path with
    | single step =>
      obtain ⟨m, mem, rfl, q, reference, rfl⟩ := step
      exact ordered.earlier m mem q reference
    | tail _ step ih =>
      obtain ⟨m, mem, rfl, q, reference, rfl⟩ := step
      exact (ordered.earlier m mem q reference).trans ih
  exact lt_irrefl _ (down loop)

theorem cycleCyclic {path : List Nat} (cycle : Cycle (Edge maps) path) : Cyclic maps := by
  obtain ⟨i, loop⟩ := cycleReturns cycle
  exact ⟨nameAt maps i, loop.lift (nameAt maps) fun _ _ => edgeQuotes⟩

theorem buildOnce {p : Plan} (built : build maps = .ok p) : p.order.Perm (maps.map TriplesMap.name) := by
  rcases buildEnds maps with ⟨_, _, _, _, _, failed⟩ | ⟨_, _, _, _, _, ⟨_, _, failed⟩ | ⟨all, given⟩⟩
  · rw [built] at failed
    contradiction
  · rw [built] at failed
    contradiction
  · rw [built] at given
    cases Except.ok.inj given
    exact placedOnce all

theorem buildOrdered (distinct : (maps.map TriplesMap.name).Nodup) {p : Plan}
    (built : build maps = .ok p) : Known maps ∧ Ordered maps p := by
  rcases buildEnds maps with ⟨_, _, _, _, _, failed⟩ | ⟨g, levels, held, known, layered, cyclic | placed⟩
  · rw [built] at failed
    contradiction
  · obtain ⟨_, _, failed⟩ := cyclic
    rw [built] at failed
    contradiction
  · obtain ⟨all, given⟩ := placed
    rw [built] at given
    cases Except.ok.inj given
    exact ⟨known, plannedOrdered distinct held layered all known⟩

/-- Planning fails exactly at an unknown mapping, else exactly at a cycle; otherwise it gives a plan that
is in order. No counter of dependencies ever falls below zero. -/
theorem planDecidesOrder (distinct : (maps.map TriplesMap.name).Nodup) :
    ((∃ mapping reference, build maps = .error (.unknownMapping mapping reference)) ↔ ¬ Known maps) ∧
    (∀ mapping reference, build maps = .error (.unknownMapping mapping reference) →
      Quotes maps mapping reference ∧ reference ∉ maps.map TriplesMap.name) ∧
    ((∃ path, build maps = .error (.referenceCycle path)) ↔ Known maps ∧ Cyclic maps) ∧
    (Known maps → ¬ Cyclic maps → ∃ p, build maps = .ok p ∧ Ordered maps p) ∧
    build maps ≠ .error (.document .counterBelowZero) := by
  rcases buildEnds maps with ⟨m, mem, q, reference, absent, failed⟩ |
    ⟨g, levels, held, known, layered, ⟨path, cycle, failed⟩ | ⟨all, given⟩⟩
  · have unknown : ¬ Known maps := fun known => absent (known m mem q reference)
    refine ⟨⟨fun _ => unknown, fun _ => ⟨_, _, failed⟩⟩, ?_, ⟨?_, fun ⟨known, _⟩ => absurd known unknown⟩,
      fun known => absurd known unknown, by simp [failed]⟩
    · intro mapping target same
      rw [failed] at same
      cases same
      exact ⟨⟨m, mem, rfl, q, reference, rfl⟩, absent⟩
    · rintro ⟨path, same⟩
      rw [failed] at same
      cases same
  · have cyclic := cycleCyclic cycle
    refine ⟨⟨?_, fun unknown => absurd known unknown⟩, ?_, ⟨fun _ => ⟨known, cyclic⟩, fun _ => ⟨_, failed⟩⟩,
      fun _ acyclic => absurd cyclic acyclic, by simp [failed]⟩
    · rintro ⟨mapping, target, same⟩
      rw [failed] at same
      cases same
    · intro mapping target same
      rw [failed] at same
      cases same
  · have ordered := plannedOrdered distinct held layered all known
    have acyclic := orderedAcyclic ordered
    refine ⟨⟨?_, fun unknown => absurd known unknown⟩, ?_, ⟨?_, fun ⟨_, cyclic⟩ => absurd cyclic acyclic⟩,
      fun _ _ => ⟨_, given, ordered⟩, by simp [given]⟩
    all_goals simp [given]

def bare (name : String) (quoted : Option String) : TriplesMap where
  name := name
  sources := []
  targets := []
  subject := ⟨[], quoted.map fun mapping => ⟨mapping, false, none, .all⟩, [], []⟩
  predicateObjects := []
  graphs := []
  condition := none

theorem quotedAfterwards :
    (["late", "early"] : List String).Nodup ∧ ∃ p,
      build [bare "late" (some "early"), bare "early" none] = .ok p ∧
      Ordered [bare "late" (some "early"), bare "early" none] p := by
  have known : Known [bare "late" (some "early"), bare "early" none] := by
    simp [Known, bare, TriplesMap.quotedRefs]
  have only {a b : String} : Quotes [bare "late" (some "early"), bare "early" none] a b →
      a = "late" ∧ b = "early" := by
    rintro ⟨m, mem, rfl, q, reference, rfl⟩
    simp only [List.mem_cons, List.not_mem_nil, or_false] at mem
    rcases mem with rfl | rfl
    · simp only [bare, TriplesMap.quotedRefs, Option.map_some, Option.toList_some, List.filterMap_nil,
        List.append_nil, List.mem_singleton] at reference
      exact ⟨rfl, by rw [reference]⟩
    · simp [bare, TriplesMap.quotedRefs] at reference
  have acyclic : ¬ Cyclic [bare "late" (some "early"), bare "early" none] := by
    rintro ⟨name, loop⟩
    have ends {a b : String} :
        Relation.TransGen (Quotes [bare "late" (some "early"), bare "early" none]) a b →
        a = "late" ∧ b = "early" := by
      intro path
      induction path with
      | single step => exact only step
      | tail _ step ih => exact ⟨ih.1, (only step).2⟩
    have apart : "late" = "early" := (ends loop).1.symm.trans (ends loop).2
    exact absurd apart (by decide)
  exact ⟨by decide, (planDecidesOrder (by decide)).2.2.2.1 known acyclic⟩

end TabularRdf.Mapping.Plan
