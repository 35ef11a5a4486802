import Mathlib.Data.List.Chain
import Mathlib.Data.List.Nodup
import TabularRdf.Mapping.Plan

/-! Walking along references that are stuck. Where every stuck map has a stuck dependency, the walk comes
back to a place it has been at, and its path from there is a cycle of the graph. -/
namespace TabularRdf.Mapping.Plan

structure Cycle {α : Type} (step : α → α → Prop) (path : List α) : Prop where
  long : 2 ≤ path.length
  closed : path.head? = path.getLast?
  once : path.dropLast.Nodup
  linked : path.IsChain step

theorem cycleReturns {α : Type} {step : α → α → Prop} {path : List α} (cycle : Cycle step path) :
    ∃ a, Relation.TransGen step a a := by
  obtain ⟨long, closed, _, linked⟩ := cycle
  match path, long with
  | a :: b :: rest, _ =>
    obtain ⟨first, tail⟩ := List.isChain_cons_cons.mp linked
    have last : (b :: rest).getLast (by simp) = a := by
      rw [List.head?_cons, List.getLast?_cons_cons, List.getLast?_eq_some_getLast (by simp)] at closed
      exact (Option.some.inj closed).symm
    have back := List.relationReflTransGen_of_exists_isChain_cons rest tail last
    exact ⟨a, .head' first back⟩

theorem walkOn {g : Graph} {stuck path : List Nat} {here next : Nat}
    (found : (g.dependenciesOf here).find? stuck.contains = some next) :
    walk g stuck path here =
      if next ∈ path then path.dropWhile (· ≠ next) ++ [next]
      else walk g stuck (path ++ [next]) next := by
  rw [walk]
  split
  · rename_i lost
    rw [found] at lost
    contradiction
  · rename_i other
    rw [found] at other
    cases Option.some.inj other
    rfl

theorem dropToFirst {next : Nat} {before after : List Nat} (fresh : next ∉ before) :
    (before ++ next :: after).dropWhile (· ≠ next) = next :: after := by
  induction before with
  | nil => simp
  | cons i rest ih =>
    obtain ⟨other, later⟩ := not_or.mp (mt List.mem_cons.mpr fresh)
    simpa [Ne.symm other] using ih later

theorem chainOn {α : Type} {step : α → α → Prop} {path : List α} {here next : α}
    (linked : path.IsChain step) (last : path.getLast? = some here) (follows : step here next) :
    (path ++ [next]).IsChain step := by
  refine List.isChain_append.mpr ⟨linked, .singleton _, ?_⟩
  intro x atEnd y atStart
  rw [last, Option.mem_some] at atEnd
  cases atEnd
  cases Option.mem_some.mp atStart
  exact follows

theorem walkCycle {g : Graph} {stuck : List Nat}
    (serial : ∀ i ∈ stuck, ∃ j ∈ g.dependenciesOf i, j ∈ stuck) {path : List Nat} {here : Nat}
    (last : path.getLast? = some here) (once : path.Nodup) (inside : ∀ i ∈ path, i ∈ stuck)
    (linked : path.IsChain fun i j => j ∈ g.dependenciesOf i) :
    Cycle (fun i j => j ∈ g.dependenciesOf i) (walk g stuck path here) := by
  induction path, here using walk.induct g stuck with
  | case1 path here lost =>
    obtain ⟨j, quoted, waiting⟩ := serial here (inside here (List.mem_of_getLast? last))
    exact absurd waiting (by simpa using List.find?_eq_none.mp lost j quoted)
  | case2 path here next found seen =>
    rw [walkOn found, if_pos seen]
    obtain ⟨before, after, rfl, fresh⟩ := List.eq_append_cons_of_mem seen
    rw [dropToFirst fresh]
    have ends : (next :: after).getLast? = some here := by
      rw [← last, List.getLast?_append_cons]
    refine ⟨by simp, ?_, ?_, ?_⟩
    · rw [List.getLast?_concat]
      rfl
    · rw [List.dropLast_concat]
      exact List.Nodup.of_append_right once
    · exact chainOn linked.right_of_append ends (List.mem_of_find?_eq_some found)
  | case3 path here next found fresh ih =>
    rw [walkOn found, if_neg fresh]
    refine ih List.getLast?_concat (by simpa using List.Nodup.concat fresh once) ?_
      (chainOn linked last (List.mem_of_find?_eq_some found))
    intro i mem
    rcases List.mem_append.mp mem with old | new
    · exact inside i old
    · rw [List.mem_singleton.mp new]
      simpa using List.find?_some found

theorem cyclePathCycle {g : Graph} {stuck : List Nat} (some : stuck ≠ [])
    (serial : ∀ i ∈ stuck, ∃ j ∈ g.dependenciesOf i, j ∈ stuck) :
    Cycle (fun i j => j ∈ g.dependenciesOf i) (cyclePath g stuck) := by
  cases stuck with
  | nil => contradiction
  | cons start rest => exact walkCycle serial rfl (by simp) (by simp) (.singleton _)

end TabularRdf.Mapping.Plan
