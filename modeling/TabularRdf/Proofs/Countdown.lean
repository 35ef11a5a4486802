import Mathlib.Data.List.Nodup
import Mathlib.Data.List.Sort
import TabularRdf.Proofs.QuoteGraph

/-! Placing maps by counters. Each counter holds the number of dependencies of its map that are not placed
yet, so no counter falls below zero, and what becomes ready is exactly what waits for nothing else. -/
namespace TabularRdf.Mapping.Plan

theorem loweredOnce {c : Countdown} {i n : Nat} (h : c.remaining[i]? = some (n + 1)) :
    c.lower i = some ⟨c.remaining.set i n, if n = 0 then c.ready ++ [i] else c.ready⟩ := by
  simp [Countdown.lower, h]

structure Lowered (edges : List Nat) (c d : Countdown) (ready : List Nat) : Prop where
  remaining : ∀ i, d.remaining[i]? = (c.remaining[i]?).map (· - edges.count i)
  joined : d.ready = c.ready ++ ready
  once : ready.Nodup
  exhausted : ∀ i, i ∈ ready ↔ i ∈ edges ∧ c.remaining[i]? = some (edges.count i)

theorem enoughLeft {rest : List Nat} {c : Countdown} {i n : Nat} (counter : c.remaining[i]? = some (n + 1))
    (enough : ∀ j ∈ i :: rest, ∃ m, c.remaining[j]? = some m ∧ (i :: rest).count j ≤ m) :
    ∀ j ∈ rest, ∃ m, (c.remaining.set i n)[j]? = some m ∧ rest.count j ≤ m := by
  intro j mem
  obtain ⟨m, held, most⟩ := enough j (List.mem_cons_of_mem _ mem)
  by_cases same : i = j
  · subst j
    have bound := (List.getElem?_eq_some_iff.mp counter).1
    rw [counter, Option.some.injEq] at held
    rw [List.count_cons_self] at most
    exact ⟨n, by simp [bound], by omega⟩
  · rw [List.count_cons_of_ne same] at most
    exact ⟨m, by rw [List.getElem?_set_ne same, held], most⟩

theorem exhaustedStep {rest ready remaining : List Nat} {i n : Nat}
    (counter : remaining[i]? = some (n + 1)) (most : rest.count i ≤ n)
    (exhausted : ∀ j, j ∈ ready ↔ j ∈ rest ∧ (remaining.set i n)[j]? = some (rest.count j)) (j : Nat) :
    j ∈ (if n = 0 then i :: ready else ready) ↔
      j ∈ i :: rest ∧ remaining[j]? = some ((i :: rest).count j) := by
  have bound := (List.getElem?_eq_some_iff.mp counter).1
  have later := exhausted j
  by_cases same : i = j
  · subst j
    rw [List.getElem?_set_self bound, Option.some.injEq] at later
    rw [counter, List.count_cons_self, Option.some.injEq, Nat.add_right_cancel_iff]
    split
    · exact ⟨fun _ => ⟨List.mem_cons_self, by omega⟩, fun _ => List.mem_cons_self⟩
    · rw [later]
      constructor
      · rintro ⟨_, equal⟩
        exact ⟨List.mem_cons_self, equal⟩
      · rintro ⟨_, equal⟩
        exact ⟨List.count_pos_iff.mp (by omega), equal⟩
  · rw [List.getElem?_set_ne same] at later
    rw [List.count_cons_of_ne same]
    split <;> simp [later, Ne.symm same]

theorem Lowered.step {rest ready now : List Nat} {c d : Countdown} {i n : Nat}
    (counter : c.remaining[i]? = some (n + 1)) (most : rest.count i ≤ n)
    (made : now = if n = 0 then c.ready ++ [i] else c.ready)
    (low : Lowered rest ⟨c.remaining.set i n, now⟩ d ready) :
    Lowered (i :: rest) c d (if n = 0 then i :: ready else ready) := by
  have bound := (List.getElem?_eq_some_iff.mp counter).1
  refine ⟨?_, ?_, ?_, exhaustedStep counter most low.exhausted⟩
  · intro j
    rw [low.remaining j]
    by_cases same : i = j
    · subst j
      rw [List.getElem?_set_self bound, counter, List.count_cons_self]
      simp
    · rw [List.getElem?_set_ne same, List.count_cons_of_ne same]
  · rw [low.joined, made]
    split <;> simp
  · split
    · rename_i zero
      refine List.nodup_cons.mpr ⟨fun mem => ?_, low.once⟩
      have inside := ((low.exhausted i).mp mem).1
      have := List.count_pos_iff.mpr inside
      omega
    · exact low.once

theorem loweredAll {edges : List Nat} {c : Countdown}
    (enough : ∀ i ∈ edges, ∃ n, c.remaining[i]? = some n ∧ edges.count i ≤ n) :
    ∃ d ready, edges.foldlM Countdown.lower c = some d ∧ Lowered edges c d ready := by
  induction edges generalizing c with
  | nil => exact ⟨c, [], rfl, ⟨by simp, by simp, by simp, by simp⟩⟩
  | cons i rest ih =>
    obtain ⟨n, counter, most⟩ := enough i List.mem_cons_self
    rw [List.count_cons_self] at most
    obtain ⟨n, rfl⟩ : ∃ k, n = k + 1 := ⟨n - 1, by omega⟩
    have first := loweredOnce counter
    obtain ⟨d, ready, run, low⟩ := ih (c := ⟨c.remaining.set i n, _⟩) (enoughLeft counter enough)
    refine ⟨d, _, ?_, Lowered.step counter (by omega) rfl low⟩
    rw [List.foldlM_cons, first]
    exact run

/-- Every counter holds the number of dependencies that are not placed. -/
def Counted (g : Graph) (size : Nat) (placed remaining : List Nat) : Prop :=
  ∀ i, remaining[i]? = if i < size then some ((g.dependenciesOf i).countP (· ∉ placed)) else none

def readyAfter (g : Graph) (size : Nat) (placed : List Nat) : List Nat :=
  (List.range size).filter fun i => i ∉ placed ∧ ∀ j ∈ g.dependenciesOf i, j ∈ placed

theorem memReadyAfter {g : Graph} {size i : Nat} {placed : List Nat} :
    i ∈ readyAfter g size placed ↔ i < size ∧ i ∉ placed ∧ ∀ j ∈ g.dependenciesOf i, j ∈ placed := by
  simp [readyAfter]

theorem sharedCount {xs ys : List Nat} (left : xs.Nodup) (right : ys.Nodup) :
    xs.countP (· ∈ ys) = ys.countP (· ∈ xs) := by
  rw [List.countP_eq_length_filter, List.countP_eq_length_filter]
  refine List.Perm.length_eq ((List.perm_ext_iff_of_nodup (left.filter _) (right.filter _)).mpr ?_)
  intro x
  simp [and_comm]

theorem nonePending {xs placed : List Nat} :
    xs.countP (· ∉ placed) = 0 ↔ ∀ x ∈ xs, x ∈ placed := by
  simp [List.countP_eq_zero]

theorem splitCount {placed level : List Nat} (apart : ∀ j ∈ level, j ∉ placed) (xs : List Nat) :
    xs.countP (· ∉ placed) = xs.countP (· ∉ placed ++ level) + xs.countP (· ∈ level) := by
  induction xs with
  | nil => rfl
  | cons x xs ih =>
    simp only [List.countP_cons, ih, List.mem_append]
    by_cases before : x ∈ placed
    · have later : x ∉ level := fun mem => apart x mem before
      simp [before, later]
    · by_cases now : x ∈ level <;> simp [before, now] <;> omega

theorem sortedReady {g : Graph} {size : Nat} {xs : List Nat} {placed : List Nat} (once : xs.Nodup)
    (exact : ∀ i, i ∈ xs ↔ i ∈ readyAfter g size placed) : xs.mergeSort = readyAfter g size placed := by
  have ordered : (readyAfter g size placed).Pairwise (· ≤ ·) :=
    List.pairwise_le_range.filter _
  have unique : (readyAfter g size placed).Nodup := List.nodup_range.filter _
  have perm : xs.mergeSort.Perm (readyAfter g size placed) :=
    (List.mergeSort_perm xs _).trans ((List.perm_ext_iff_of_nodup once unique).mpr exact)
  exact perm.eq_of_pairwise' (List.pairwise_mergeSort' (· ≤ ·) xs) ordered

section

variable {g : Graph} {size : Nat} {edge : Nat → Nat → Prop} (held : g.Holds size edge)
include held

theorem edgesFromLevel (level : List Nat) (i : Nat) :
    (level.flatMap g.dependentsOf).count i = level.countP (· ∈ g.dependenciesOf i) := by
  induction level with
  | nil => rfl
  | cons j rest ih =>
    rw [List.flatMap_cons, List.count_append, ih, List.countP_cons, Nat.add_comm]
    congr 1
    have same : i ∈ g.dependentsOf j ↔ j ∈ g.dependenciesOf i :=
      (held.quoting i j).trans (held.quoted i j).symm
    by_cases mem : i ∈ g.dependentsOf j
    · simp [List.count_eq_one_of_mem (held.quotingOnce j) mem, same.mp mem]
    · simp [List.count_eq_zero.mpr mem, mt same.mpr mem]

theorem edgesCounted (placed : List Nat) (i : Nat) :
    ((readyAfter g size placed).flatMap g.dependentsOf).count i =
      (g.dependenciesOf i).countP (· ∈ readyAfter g size placed) :=
  (edgesFromLevel held _ i).trans (sharedCount (List.nodup_range.filter _) (held.quotedOnce i))

theorem edgeOrigin {level : List Nat} {i : Nat} :
    i ∈ level.flatMap g.dependentsOf ↔ ∃ j ∈ level, j ∈ g.dependenciesOf i := by
  rw [List.mem_flatMap]
  refine exists_congr fun j => and_congr_right fun _ => ?_
  exact (held.quoting i j).trans (held.quoted i j).symm

theorem readyNext (inside : ∀ i j, edge i j → i < size ∧ j < size) {placed remaining ready : List Nat}
    (closed : ∀ i ∈ placed, ∀ j ∈ g.dependenciesOf i, j ∈ placed)
    (counted : Counted g size placed remaining)
    (exhausted : ∀ i, i ∈ ready ↔ i ∈ (readyAfter g size placed).flatMap g.dependentsOf ∧
      remaining[i]? = some (((readyAfter g size placed).flatMap g.dependentsOf).count i)) (i : Nat) :
    i ∈ ready ↔ i ∈ readyAfter g size (placed ++ readyAfter g size placed) := by
  have apart : ∀ j ∈ readyAfter g size placed, j ∉ placed := fun j mem => (memReadyAfter.mp mem).2.1
  have taken := splitCount apart (g.dependenciesOf i)
  rw [exhausted i, memReadyAfter, counted i, edgesCounted held, taken, edgeOrigin held]
  constructor
  · rintro ⟨⟨j, onLevel, quoted⟩, last⟩
    have bound := (inside i j ((held.quoted i j).mp quoted)).1
    rw [if_pos bound, Option.some.injEq] at last
    have none : (g.dependenciesOf i).countP (· ∉ placed ++ readyAfter g size placed) = 0 := by omega
    refine ⟨bound, fun before => ?_, nonePending.mp none⟩
    rcases List.mem_append.mp before with old | new
    · exact apart j onLevel (closed i old j quoted)
    · exact apart j onLevel ((memReadyAfter.mp new).2.2 j quoted)
  · rintro ⟨bound, fresh, all⟩
    rw [List.mem_append, not_or] at fresh
    have notReady : ¬ ∀ j ∈ g.dependenciesOf i, j ∈ placed := fun ready =>
      fresh.2 (memReadyAfter.mpr ⟨bound, fresh.1, ready⟩)
    push Not at notReady
    obtain ⟨j, quoted, waiting⟩ := notReady
    have onLevel := (List.mem_append.mp (all j quoted)).resolve_left waiting
    rw [if_pos bound, nonePending.mpr all, Nat.zero_add]
    exact ⟨⟨j, onLevel, quoted⟩, rfl⟩

theorem releasedLevel (inside : ∀ i j, edge i j → i < size ∧ j < size) {placed remaining : List Nat}
    (closed : ∀ i ∈ placed, ∀ j ∈ g.dependenciesOf i, j ∈ placed)
    (counted : Counted g size placed remaining) :
    let level := readyAfter g size placed
    ∃ c, release g level remaining = some c ∧ Counted g size (placed ++ level) c.remaining ∧
      c.ready.mergeSort = readyAfter g size (placed ++ level) := by
  intro level
  have apart : ∀ j ∈ level, j ∉ placed := fun j mem => (memReadyAfter.mp mem).2.1
  have taken (i : Nat) := splitCount apart (g.dependenciesOf i)
  have edges (i : Nat) : (level.flatMap g.dependentsOf).count i =
      (g.dependenciesOf i).countP (· ∈ level) := edgesCounted held placed i
  have enough : ∀ i ∈ level.flatMap g.dependentsOf, ∃ n, remaining[i]? = some n ∧
      (level.flatMap g.dependentsOf).count i ≤ n := by
    intro i mem
    obtain ⟨j, _, quoted⟩ := (edgeOrigin held).mp mem
    have bound := (inside i j ((held.quoted i j).mp quoted)).1
    refine ⟨_, (counted i).trans (if_pos bound), ?_⟩
    rw [edges i, taken i]
    omega
  obtain ⟨c, ready, run, low⟩ := loweredAll (c := ⟨remaining, []⟩) enough
  refine ⟨c, run, ?_, ?_⟩
  · intro i
    rw [low.remaining i, counted i, edges i, taken i]
    split <;> simp
  · rw [low.joined, List.nil_append]
    exact sortedReady low.once (readyNext held inside closed counted low.exhausted)

end

inductive Layered (g : Graph) (size : Nat) : List Nat → List (List Nat) → Prop
  | done {placed} (none : readyAfter g size placed = []) : Layered g size placed []
  | level {placed rest} (some : readyAfter g size placed ≠ [])
      (next : Layered g size (placed ++ readyAfter g size placed) rest) :
      Layered g size placed (readyAfter g size placed :: rest)

theorem closedAfter {g : Graph} {size : Nat} {placed : List Nat}
    (closed : ∀ i ∈ placed, ∀ j ∈ g.dependenciesOf i, j ∈ placed) :
    ∀ i ∈ placed ++ readyAfter g size placed, ∀ j ∈ g.dependenciesOf i,
      j ∈ placed ++ readyAfter g size placed := by
  intro i mem j quoted
  rcases List.mem_append.mp mem with old | new
  · exact List.mem_append_left _ (closed i old j quoted)
  · exact List.mem_append_left _ ((memReadyAfter.mp new).2.2 j quoted)

theorem layersRun {g : Graph} {size : Nat} {edge : Nat → Nat → Prop} (held : g.Holds size edge)
    (inside : ∀ i j, edge i j → i < size ∧ j < size) {placed current remaining : List Nat}
    (ready : current = readyAfter g size placed)
    (closed : ∀ i ∈ placed, ∀ j ∈ g.dependenciesOf i, j ∈ placed)
    (counted : Counted g size placed remaining) :
    ∃ levels left, layers g current remaining = some (levels, left) ∧
      Layered g size placed levels ∧ Counted g size (placed ++ levels.flatten) left := by
  induction current, remaining using layers.induct g generalizing placed with
  | case1 current remaining empty =>
    have none : readyAfter g size placed = [] := ready ▸ List.isEmpty_iff.mp empty
    exact ⟨[], remaining, by rw [layers, if_pos empty], .done none, by simpa using counted⟩
  | case2 current remaining _ failed =>
    obtain ⟨c, run, _⟩ := releasedLevel held inside closed counted
    rw [← ready, failed] at run
    contradiction
  | case3 current remaining nonempty c released ih =>
    obtain ⟨d, run, lowered, sorted⟩ := releasedLevel held inside closed counted
    rw [← ready, released] at run
    cases Option.some.inj run
    obtain ⟨levels, left, rest, layered, last⟩ := ih sorted (closedAfter closed) lowered
    refine ⟨current :: levels, left, ?_, ?_, by simpa [ready] using last⟩
    · rw [layers, if_neg nonempty]
      split
      · rename_i failed
        rw [released] at failed
        contradiction
      · rename_i found
        rw [released] at found
        cases Option.some.inj found
        rw [rest]
        rfl
    · subst ready
      exact .level (fun none => nonempty (List.isEmpty_iff.mpr none)) layered

end TabularRdf.Mapping.Plan
