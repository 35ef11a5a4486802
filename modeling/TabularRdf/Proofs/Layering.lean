import TabularRdf.Proofs.Countdown
import TabularRdf.Proofs.QuoteCycle

/-! Levels of what is ready, by place. A map on a level has all its dependencies on earlier ones and, above
the lowest level, one of them on the level just below; what is on no level waits for something that is on
none either, so planning ends with all maps placed or with a cycle. -/
namespace TabularRdf.Mapping.Plan

variable {g : Graph} {size : Nat} {placed : List Nat} {levels : List (List Nat)}

theorem layeredAt (layered : Layered g size placed levels) {k : Nat} {level : List Nat}
    (atLevel : levels[k]? = some level) :
    level = readyAfter g size (placed ++ (levels.take k).flatten) := by
  induction layered generalizing k with
  | done none => simp at atLevel
  | @level placed rest some next ih =>
    cases k with
    | zero =>
      rw [List.getElem?_cons_zero, Option.some.injEq] at atLevel
      simp [atLevel]
    | succ k =>
      rw [List.getElem?_cons_succ] at atLevel
      simpa using ih atLevel

theorem layeredOnce (layered : Layered g size placed levels) :
    levels.flatten.Nodup ∧ ∀ i ∈ levels.flatten, i < size ∧ i ∉ placed := by
  induction layered with
  | done none => simp
  | @level placed rest some next ih =>
    obtain ⟨once, inside⟩ := ih
    rw [List.flatten_cons]
    constructor
    · refine List.nodup_append.mpr ⟨List.nodup_range.filter _, once, fun i here j later same => ?_⟩
      subst j
      exact (inside i later).2 (List.mem_append_right _ here)
    · intro i mem
      rcases List.mem_append.mp mem with here | later
      · exact ⟨(memReadyAfter.mp here).1, (memReadyAfter.mp here).2.1⟩
      · exact ⟨(inside i later).1, fun old => (inside i later).2 (List.mem_append_left _ old)⟩

theorem layeredDone (layered : Layered g size placed levels) :
    readyAfter g size (placed ++ levels.flatten) = [] := by
  induction layered with
  | done none => simpa using none
  | level some next ih => simpa using ih

theorem layeredClosed (layered : Layered g size placed levels)
    (closed : ∀ i ∈ placed, ∀ j ∈ g.dependenciesOf i, j ∈ placed) :
    ∀ i ∈ placed ++ levels.flatten, ∀ j ∈ g.dependenciesOf i, j ∈ placed ++ levels.flatten := by
  induction layered with
  | done none => simpa using closed
  | level some next ih => simpa using ih (closedAfter closed)

section

variable {α : Type} {levels : List (List α)} {x : α}

theorem ofTaken {k : Nat} (mem : x ∈ (levels.take k).flatten) : x ∈ levels.flatten := by
  obtain ⟨level, early, inside⟩ := List.mem_flatten.mp mem
  exact List.mem_flatten.mpr ⟨level, List.mem_of_mem_take early, inside⟩

variable [BEq α]

def rankOf (levels : List (List α)) (x : α) : Nat := levels.findIdx fun level => level.contains x

variable [LawfulBEq α]

theorem rankBelow {k : Nat} (mem : x ∈ (levels.take k).flatten) : rankOf levels x < k := by
  obtain ⟨level, early, inside⟩ := List.mem_flatten.mp mem
  obtain ⟨n, bound, rfl⟩ := List.mem_iff_getElem.mp early
  rw [List.length_take] at bound
  by_contra above
  have before : n < rankOf levels x := by omega
  have absent := List.not_of_lt_findIdx before
  rw [List.getElem_take] at inside
  simp [inside] at absent

theorem rankFound (mem : x ∈ levels.flatten) : ∃ level, levels[rankOf levels x]? = some level ∧ x ∈ level := by
  obtain ⟨level, there, inside⟩ := List.mem_flatten.mp mem
  have bound : rankOf levels x < levels.length :=
    List.findIdx_lt_length.mpr ⟨level, there, by simpa using inside⟩
  have holds := List.findIdx_getElem (w := bound)
  exact ⟨_, List.getElem?_eq_getElem bound, List.contains_iff_mem.mp holds⟩

theorem takenEarlier {k : Nat} (mem : x ∈ levels.flatten) (below : rankOf levels x < k) :
    x ∈ (levels.take k).flatten := by
  obtain ⟨level, atLevel, inside⟩ := rankFound mem
  have early : (levels.take k)[rankOf levels x]? = some level := by
    rw [List.getElem?_take_of_lt below, atLevel]
  exact List.mem_flatten.mpr ⟨level, List.mem_of_getElem? early, inside⟩

end

theorem dependencyEarlier (layered : Layered g size [] levels) {i j : Nat} (mem : i ∈ levels.flatten)
    (quoted : j ∈ g.dependenciesOf i) : j ∈ (levels.take (rankOf levels i)).flatten := by
  obtain ⟨level, atLevel, inside⟩ := rankFound mem
  rw [layeredAt layered atLevel] at inside
  exact (memReadyAfter.mp inside).2.2 j quoted

theorem dependencyBelow (layered : Layered g size [] levels) {i : Nat} (mem : i ∈ levels.flatten) :
    rankOf levels i = 0 ∨ ∃ j ∈ g.dependenciesOf i, rankOf levels j + 1 = rankOf levels i := by
  cases rank : rankOf levels i with
  | zero => exact .inl rfl
  | succ k =>
    right
    have notEarlier (n : Nat) (few : n ≤ k + 1) : i ∉ (levels.take n).flatten := fun early => by
      have := rankBelow early
      omega
    obtain ⟨level, atLevel, _⟩ := rankFound mem
    have bound := (List.getElem?_eq_some_iff.mp atLevel).1
    have below : levels[k]? = some levels[k] := List.getElem?_eq_getElem (by omega)
    have notReady : ¬ ∀ j ∈ g.dependenciesOf i, j ∈ (levels.take k).flatten := fun ready => by
      have placedHere : i ∈ readyAfter g size ([] ++ (levels.take k).flatten) :=
        memReadyAfter.mpr ⟨((layeredOnce layered).2 i mem).1, notEarlier k (by omega), ready⟩
      rw [← layeredAt layered below] at placedHere
      refine notEarlier (k + 1) (Nat.le_refl _) ?_
      rw [List.take_add_one, below, List.flatten_append]
      exact List.mem_append_right _ (by simpa using placedHere)
    push Not at notReady
    obtain ⟨j, quoted, late⟩ := notReady
    have early := dependencyEarlier layered mem quoted
    have upper := rankBelow early
    have lower : ¬ rankOf levels j < k := fun less => late (takenEarlier (ofTaken early) less)
    exact ⟨j, quoted, by omega⟩

section

variable {maps : List TriplesMap}

theorem edgeInside {i j : Nat} (edge : Edge maps i j) : i < maps.length ∧ j < maps.length := by
  obtain ⟨m, atPlace, q, _, found⟩ := edge
  exact ⟨(List.getElem?_eq_some_iff.mp atPlace).1, positionBound found⟩

theorem firstReady {g : Graph} (held : g.Holds maps.length (Edge maps)) :
    ((List.range maps.length).filter fun i => (g.dependencies.map List.length)[i]? = some 0) =
      readyAfter g maps.length [] := by
  refine List.filter_congr fun i mem => ?_
  have bound : i < g.dependencies.length := by simpa [held.places.1] using mem
  simp [Graph.dependenciesOf, List.getElem?_eq_getElem bound, List.eq_nil_iff_forall_not_mem]

theorem firstCounted {g : Graph} (held : g.Holds maps.length (Edge maps)) :
    Counted g maps.length [] (g.dependencies.map List.length) := by
  intro i
  split
  · rename_i bound
    rw [← held.places.1] at bound
    simp [Graph.dependenciesOf, List.getElem?_eq_getElem bound]
  · rename_i outside
    rw [← held.places.1] at outside
    simp; omega

theorem waitsInTheEnd {g : Graph} {size i : Nat} {levels : List (List Nat)}
    (layered : Layered g size [] levels) (bound : i < size) :
    i ∉ levels.flatten ↔ ∃ j ∈ g.dependenciesOf i, j ∉ levels.flatten := by
  constructor
  · intro missing
    by_contra ready
    push Not at ready
    have next : i ∈ readyAfter g size ([] ++ levels.flatten) :=
      memReadyAfter.mpr ⟨bound, missing, ready⟩
    rw [layeredDone layered] at next
    contradiction
  · rintro ⟨j, quoted, missing⟩ placed
    exact missing (layeredClosed layered (by simp) i placed j quoted)

theorem memStuck {g : Graph} {size i : Nat} {levels : List (List Nat)} {left : List Nat}
    (layered : Layered g size [] levels) (counted : Counted g size levels.flatten left) :
    (i ∈ (List.range size).filter fun i => 0 < left[i]?.getD 0) ↔ i < size ∧ i ∉ levels.flatten := by
  rw [List.mem_filter, List.mem_range]
  refine and_congr_right fun bound => ?_
  rw [counted i, if_pos bound, waitsInTheEnd layered bound]
  simp [List.countP_pos_iff]

theorem allPlaced {g : Graph} {size : Nat} {levels : List (List Nat)}
    (layered : Layered g size [] levels) :
    size ≤ levels.flatten.length ↔ levels.flatten.Perm (List.range size) := by
  obtain ⟨once, inside⟩ := layeredOnce layered
  have within : levels.flatten.Subperm (List.range size) :=
    List.subperm_of_subset once fun i mem => List.mem_range.mpr (inside i mem).1
  constructor
  · intro many
    exact within.perm_of_length_le (by simpa using many)
  · intro all
    simpa using all.length_eq.ge

theorem someMissing {size : Nat} {placed : List Nat} (few : placed.length < size) :
    ∃ i, i < size ∧ i ∉ placed := by
  by_contra none
  push Not at none
  have all := List.subperm_of_subset List.nodup_range fun i mem => none i (List.mem_range.mp mem)
  have := all.length_le
  rw [List.length_range] at this
  omega

theorem stuckSerial {g : Graph} (held : g.Holds maps.length (Edge maps)) {levels : List (List Nat)}
    {left : List Nat} (layered : Layered g maps.length [] levels)
    (counted : Counted g maps.length levels.flatten left) (few : levels.flatten.length < maps.length) :
    let stuck := (List.range maps.length).filter fun i => 0 < left[i]?.getD 0
    stuck ≠ [] ∧ ∀ i ∈ stuck, ∃ j ∈ g.dependenciesOf i, j ∈ stuck := by
  intro stuck
  have waits {i : Nat} := memStuck (i := i) layered counted
  obtain ⟨i, missing⟩ := someMissing few
  refine ⟨List.ne_nil_of_mem (waits.mpr missing), fun i mem => ?_⟩
  obtain ⟨bound, late⟩ := waits.mp mem
  obtain ⟨j, quoted, waiting⟩ := (waitsInTheEnd layered bound).mp late
  exact ⟨j, quoted, waits.mpr ⟨(edgeInside ((held.quoted i j).mp quoted)).2, waiting⟩⟩

theorem stuckCycle {g : Graph} (held : g.Holds maps.length (Edge maps)) {levels : List (List Nat)}
    {left : List Nat} (layered : Layered g maps.length [] levels)
    (counted : Counted g maps.length levels.flatten left) (few : levels.flatten.length < maps.length) :
    Cycle (Edge maps) (cyclePath g ((List.range maps.length).filter fun i => 0 < left[i]?.getD 0)) := by
  have edges : Edge maps = fun i j => j ∈ g.dependenciesOf i := by
    funext i j
    exact propext (held.quoted i j).symm
  obtain ⟨some, serial⟩ := stuckSerial held layered counted few
  rw [edges]
  exact cyclePathCycle some serial

theorem buildLayered {g : Graph} {levels : List (List Nat)} {left : List Nat} (loaded : graphOf maps = .ok g)
    (run : layers g ((List.range maps.length).filter fun i => (g.dependencies.map List.length)[i]? = some 0)
      (g.dependencies.map List.length) = some (levels, left)) :
    build maps = if levels.flatten.length < maps.length then
        .error (.referenceCycle ((cyclePath g ((List.range maps.length).filter fun i => 0 < left[i]?.getD 0)).map
          (nameAt maps)))
      else .ok ⟨levels.map fun level => level.map (nameAt maps)⟩ := by
  simp only [build, loaded, run, bind, Except.bind]
  split <;> rfl

theorem buildEnds (maps : List TriplesMap) :
    (∃ m ∈ maps, ∃ q ∈ m.quotedRefs, q.mapping ∉ maps.map TriplesMap.name ∧
      build maps = .error (.unknownMapping m.name q.mapping)) ∨
    ∃ g levels, g.Holds maps.length (Edge maps) ∧ Known maps ∧ Layered g maps.length [] levels ∧
      ((∃ path, Cycle (Edge maps) path ∧
          build maps = .error (.referenceCycle (path.map (nameAt maps)))) ∨
        (levels.flatten.Perm (List.range maps.length) ∧
          build maps = .ok ⟨levels.map fun level => level.map (nameAt maps)⟩)) := by
  cases loaded : graphOf maps with
  | error e =>
    obtain ⟨m, member, q, reference, absent, rfl⟩ := graphUnknown loaded
    exact .inl ⟨m, member, q, reference, absent, by simp [build, loaded, bind, Except.bind]⟩
  | ok g =>
    have held := graphHolds loaded
    obtain ⟨levels, left, run, layered, counted⟩ :=
      layersRun held (fun _ _ => edgeInside) (firstReady held) (by simp) (firstCounted held)
    refine .inr ⟨g, levels, held, graphKnown loaded, layered, ?_⟩
    by_cases few : levels.flatten.length < maps.length
    · left
      refine ⟨_, stuckCycle held layered counted few, ?_⟩
      rw [buildLayered loaded run, if_pos few]
    · right
      refine ⟨(allPlaced layered).mp (Nat.le_of_not_lt few), ?_⟩
      rw [buildLayered loaded run, if_neg few]

end

end TabularRdf.Mapping.Plan
