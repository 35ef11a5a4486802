import TabularRdf.Generation.Run
import TabularRdf.Proofs.Layering
import TabularRdf.Proofs.NamedUpdates

/-! The stages of a run. A map runs once, on its level, and sees the outputs of the levels before; later maps
see its output as it was left. -/
namespace TabularRdf.Generation
open Iri Mapping Loading

def Setup.Sees (setup : Setup) (levels : List (List String)) (name : String)
    (seen : Named MapOutput) : Prop :=
  ∃ before level after, levels = before ++ level :: after ∧ name ∈ level ∧
    setup.runLevels before = .ok seen

def Setup.output (setup : Setup) (seen : Named MapOutput) (ready : Prepared) : MapOutput :=
  generateMap ready.map ready.tables setup.resolver (setup.context seen)

variable {setup : Setup} {seen outputs : Named MapOutput} {level : List String} {name : String}

theorem mapRan {entry : String × MapOutput} (ran : setup.runMap seen name = .ok entry) :
    ∃ ready, setup.prepared.lookup name = some ready ∧ entry = (name, setup.output seen ready) := by
  unfold Setup.runMap at ran
  split at ran
  · contradiction
  · split at ran
    · contradiction
    · rename_i ready found
      exact ⟨ready, found, (Except.ok.inj ran).symm⟩

theorem levelRan (ran : setup.runLevel seen level = .ok outputs) : ∃ results,
    level.mapM (setup.runMap seen) = .ok results ∧ results.map Prod.fst = level ∧
    outputs = seen.setAll results := by
  simp only [Setup.runLevel, boundOk, pureOk] at ran
  obtain ⟨results, mapped, rfl⟩ := ran
  refine ⟨results, mapped, ?_, rfl⟩
  have pairs := mappedOk.mp mapped
  clear mapped
  induction pairs with
  | nil => rfl
  | cons head _ ih =>
    obtain ⟨_, _, same⟩ := mapRan head
    rw [List.map_cons, ih, same]

theorem levelGives (distinct : level.Nodup) (ran : setup.runLevel seen level = .ok outputs)
    (mem : name ∈ level) : ∃ ready, setup.prepared.lookup name = some ready ∧
      outputs.lookup name = some (setup.output seen ready) := by
  obtain ⟨results, mapped, names, rfl⟩ := levelRan ran
  obtain ⟨entry, listed, one⟩ := mappedImage mapped mem
  obtain ⟨ready, found, rfl⟩ := mapRan one
  exact ⟨ready, found, Named.setAllOf (names.symm ▸ distinct) listed⟩

theorem levelsKeep {levels : List (List String)} (ran : levels.foldlM setup.runLevel seen = .ok outputs)
    (absent : name ∉ levels.flatten) : outputs.lookup name = seen.lookup name := by
  refine foldedKeeps ran (P := fun all => all.lookup name = seen.lookup name) rfl ?_
  intro all level after mem same step
  obtain ⟨results, _, names, rfl⟩ := levelRan step
  have other : name ∉ results.map Prod.fst := fun here =>
    absent (List.mem_flatten.mpr ⟨level, mem, names ▸ here⟩)
  rw [Named.setAllOther other, same]

theorem levelsReach {levels : List (List String)} (ran : levels.foldlM setup.runLevel seen = .ok outputs)
    (placed : name ∈ levels.flatten ∨ ∃ output, seen.lookup name = some output) :
    ∃ output, outputs.lookup name = some output := by
  induction levels generalizing seen with
  | nil =>
    cases Except.ok.inj ran
    exact placed.resolve_left (by simp)
  | cons level rest ih =>
    rw [List.foldlM_cons] at ran
    obtain ⟨next, step, ran⟩ := boundOk.mp ran
    obtain ⟨results, _, names, rfl⟩ := levelRan step
    rw [List.flatten_cons, List.mem_append] at placed
    by_cases here : name ∈ level
    · exact ih ran (.inr (Named.setAllKnown (names ▸ here)))
    · rcases placed with (now | later) | before
      · contradiction
      · exact ih ran (.inl later)
      · rw [← names] at here
        exact ih ran (.inr ((Named.setAllOther here).symm ▸ before))

theorem levelsSplit {before after : List (List String)} (ran : setup.runLevels (before ++ after) = .ok outputs) :
    ∃ middle, setup.runLevels before = .ok middle ∧ after.foldlM setup.runLevel middle = .ok outputs := by
  unfold Setup.runLevels at ran
  rw [List.foldlM_append] at ran
  exact boundOk.mp ran

theorem earlierSeen {levels before after : List (List String)} (once : levels.flatten.Nodup)
    (split : levels = before ++ after) (ran : setup.runLevels before = .ok outputs)
    (mem : name ∈ before.flatten) : ∃ earlier ready, setup.Sees levels name earlier ∧
      setup.prepared.lookup name = some ready ∧ outputs.lookup name = some (setup.output earlier ready) := by
  obtain ⟨level, listed, here⟩ := List.mem_flatten.mp mem
  obtain ⟨first, later, rfl⟩ := List.append_of_mem listed
  obtain ⟨earlier, ranFirst, rest⟩ := levelsSplit ran
  rw [List.foldlM_cons] at rest
  obtain ⟨next, step, rest⟩ := boundOk.mp rest
  subst split
  simp only [List.append_assoc, List.cons_append, List.flatten_append, List.flatten_cons] at once
  obtain ⟨_, fromLevel, _⟩ := List.nodup_append.mp once
  obtain ⟨distinct, _, apart⟩ := List.nodup_append.mp fromLevel
  obtain ⟨ready, found, output⟩ := levelGives distinct step here
  refine ⟨earlier, ready, ⟨first, level, later ++ after, by simp, here, ranFirst⟩, found, ?_⟩
  rw [levelsKeep rest fun again => apart name here name (List.mem_append_left _ again) rfl, output]

theorem levelsFailed {levels : List (List String)} {e : MappingError}
    (failed : setup.runLevels levels = .error e) :
    ∃ name ∈ levels.flatten, ∃ seen, setup.runMap seen name = .error e := by
  obtain ⟨level, listed, seen, step⟩ := foldedFailure failed
  rcases boundFailed.mp step with mapped | ⟨_, _, impossible⟩
  · obtain ⟨name, mem, one⟩ := mappedFailure mapped
    exact ⟨name, List.mem_flatten.mpr ⟨level, listed, mem⟩, seen, one⟩
  · cases impossible

theorem levelsRun {levels : List (List String)} (free : levels.flatten ≠ [] → setup.cancelled = false)
    (known : ∀ name ∈ levels.flatten, ∃ ready, setup.prepared.lookup name = some ready) :
    ∃ outputs, setup.runLevels levels = .ok outputs := by
  cases result : setup.runLevels levels with
  | ok outputs => exact ⟨outputs, rfl⟩
  | error e =>
    obtain ⟨name, mem, seen, failed⟩ := levelsFailed result
    obtain ⟨ready, found⟩ := known name mem
    simp only [Setup.runMap, free (List.ne_nil_of_mem mem), found] at failed
    cases failed

theorem levelsCancelled {levels : List (List String)} (flag : setup.cancelled = true)
    (planned : levels.flatten ≠ []) : setup.runLevels levels = .error .cancelled := by
  have stopped (seen : Named MapOutput) (name : String) : setup.runMap seen name = .error .cancelled := by
    rw [Setup.runMap, if_pos flag]
  cases result : setup.runLevels levels with
  | ok outputs =>
    obtain ⟨name, mem⟩ := List.exists_mem_of_ne_nil _ planned
    obtain ⟨level, listed, here⟩ := List.mem_flatten.mp mem
    obtain ⟨seen, _, step⟩ := foldedEach result listed
    obtain ⟨_, mapped, _⟩ := levelRan step
    obtain ⟨_, _, one⟩ := mappedImage mapped here
    rw [stopped] at one
    cases one
  | error e =>
    obtain ⟨name, _, seen, failed⟩ := levelsFailed result
    rw [stopped] at failed
    cases failed
    rfl

theorem placedBefore {levels before after : List (List String)} (split : levels = before ++ level :: after)
    (mem : name ∈ level) {other : String} (placed : other ∈ levels.flatten)
    (lower : Plan.rankOf levels other < Plan.rankOf levels name) : other ∈ before.flatten := by
  subst split
  have here : name ∈ ((before ++ level :: after).take (before.length + 1)).flatten := by
    rw [List.take_length_add_append]
    simp [mem]
  have bound := Plan.rankBelow here
  have early := Plan.takenEarlier placed (k := before.length) (by omega)
  rwa [List.take_left] at early

end TabularRdf.Generation
