import TabularRdf.Proofs.RunStages
import TabularRdf.Proofs.Preparation
import TabularRdf.Proofs.TemplateFaults
import TabularRdf.Proofs.WellFormedQuads

/-! What can stop a run. The maps are taken in document order, each with the sources that lack a table and then
with its templates; then come the name of the data set and the wish to stop. A run fails with the first of
these faults, and gives an outcome when there is none, whatever stands in the tables. -/
namespace TabularRdf.Generation
open Iri Mapping Rdf Loading

def missingTables (provider : TableProvider) (m : TriplesMap) : List MappingError :=
  (m.sources.filter fun source => (provider source).isNone).map fun source =>
    .missingTable m.name source.key

def descriptionFaults (options : GenerationOptions) : List MappingError :=
  match options.dataset with
  | some metadata => if metadata.iri = "" then [.document (.datasetIri (.invalid .emptyIri))] else []
  | none => []

def faultsOf (spec : Specification) (options : GenerationOptions) (provider : TableProvider)
    (cancelled : Bool) : List MappingError :=
  (spec.maps.flatMap fun m => missingTables provider m ++ m.faults) ++ descriptionFaults options ++
    if cancelled ∧ spec.maps ≠ [] then [.cancelled] else []

section

variable {provider : TableProvider} {resolver : Resolver}

theorem tablesFailure (m : TriplesMap) :
    errorOf (tablesOf provider m) = (missingTables provider m).head? := by
  refine failureFiltered fun source => ?_
  cases provider source <;> rfl

theorem prepareFailure {m : TriplesMap} (formed : m.Formed) :
    errorOf (prepare provider resolver m) = (missingTables provider m ++ m.faults).head? :=
  failureBound (tablesFailure m) fun _ _ => failureFinished.trans (compileFailure formed)

theorem prepareAllFailure {maps : List TriplesMap} (formed : ∀ m ∈ maps, m.Formed) :
    errorOf (prepareAll provider resolver maps) =
      (maps.flatMap fun m => missingTables provider m ++ m.faults).head? :=
  failureFinished.trans (failureMapped fun m mem => failureFinished.trans (prepareFailure (formed m mem)))

theorem descriptionFailure {options : GenerationOptions} {authors : List Author} :
    errorOf (descriptionOf options authors resolver) = (descriptionFaults options).head? := by
  unfold descriptionOf descriptionFaults
  cases options.dataset with
  | none => rfl
  | some metadata =>
    refine failureFinished.trans ?_
    by_cases empty : metadata.iri = ""
    · simp only [empty]
      rfl
    · have filled : metadata.iri.isEmpty = false := by simpa using empty
      simp [Resolver.expand, filled, empty, Except.mapError, errorOf]

end

section

variable {spec : Specification} (planned : Plan.build spec.maps = .ok spec.plan) {options : GenerationOptions}
  {provider : TableProvider}
include planned

theorem levelsFailure {cancelled : Bool} {setup : Setup}
    (made : Setup.make spec options provider cancelled = .ok setup) :
    errorOf (setup.runLevels spec.plan.levels) =
      (if cancelled ∧ spec.maps ≠ [] then [MappingError.cancelled] else []).head? := by
  have named := Plan.buildOnce planned
  have size : spec.plan.levels.flatten.length = spec.maps.length :=
    named.length_eq.trans (List.length_map _)
  have filled : spec.plan.levels.flatten ≠ [] ↔ spec.maps ≠ [] := by
    rw [← List.length_pos_iff, ← List.length_pos_iff, size]
  have flag := setupFlag made
  by_cases stopped : cancelled ∧ spec.maps ≠ []
  · rw [if_pos stopped, levelsCancelled (flag.trans stopped.1) (filled.mpr stopped.2)]
    rfl
  · rw [if_neg stopped]
    refine failureNone.mpr (levelsRun (fun some => ?_) fun name placed => ?_)
    · rw [flag]
      exact Bool.eq_false_iff.mpr fun holds => stopped ⟨holds, filled.mp some⟩
    · exact preparedKnown (setupMade made).prepared (named.mem_iff.mp placed)

theorem runFailure (formed : ∀ m ∈ spec.maps, m.Formed) (cancelled : Bool) :
    errorOf (run spec options provider cancelled) = (faultsOf spec options provider cancelled).head? := by
  rw [faultsOf, List.append_assoc]
  refine failureBound (failureFinished.trans (prepareAllFailure formed)) fun setup made => ?_
  refine failureBound descriptionFailure fun description _ => ?_
  exact failureFinished.trans (levelsFailure planned made)

end

theorem faultKinds {spec : Specification} {options : GenerationOptions} {provider : TableProvider}
    {cancelled : Bool} {e : MappingError} (listed : e ∈ faultsOf spec options provider cancelled) :
    (∃ mapping key, e = .missingTable mapping key) ∨
      (∃ template problem, e = .invalidTemplate template problem) ∨
      e = .document (.datasetIri (.invalid .emptyIri)) ∨ e = .cancelled := by
  rcases List.mem_append.mp listed with before | stop
  · rcases List.mem_append.mp before with ofMaps | ofDescription
    · obtain ⟨m, _, fault⟩ := List.mem_flatMap.mp ofMaps
      rcases List.mem_append.mp fault with table | template
      · obtain ⟨source, _, rfl⟩ := List.mem_map.mp table
        exact .inl ⟨_, _, rfl⟩
      · exact .inr (.inl (faultInvalid template))
    · unfold descriptionFaults at ofDescription
      split at ofDescription
      · split at ofDescription
        · exact .inr (.inr (.inl (List.mem_singleton.mp ofDescription)))
        · contradiction
      · contradiction
  · split at stop
    · exact .inr (.inr (.inr (List.mem_singleton.mp stop)))
    · contradiction

theorem faultsAlike {spec : Specification} {options : GenerationOptions} {first second : TableProvider}
    {cancelled : Bool} (same : ∀ source, (first source).isSome = (second source).isSome) :
    faultsOf spec options first cancelled = faultsOf spec options second cancelled := by
  have missing : missingTables first = missingTables second := by
    funext m
    simp only [missingTables, ← Option.not_isSome, same]
  rw [faultsOf, faultsOf, missing]

end TabularRdf.Generation

namespace TabularRdf.Document
open Mapping Generation Loading

theorem runFailsFirst {settings : BuildOptions} {document : Json} {spec : Specification}
    (built : build settings document = .ok spec) (options : GenerationOptions) (provider : TableProvider)
    (cancelled : Bool) :
    (∀ e, run spec options provider cancelled = .error e ↔
      (faultsOf spec options provider cancelled).head? = some e) ∧
    ((∃ outcome, run spec options provider cancelled = .ok outcome) ↔
      faultsOf spec options provider cancelled = []) ∧
    (∀ other : TableProvider, (∀ source, (provider source).isSome = (other source).isSome) →
      ∀ e, run spec options provider cancelled = .error e ↔ run spec options other cancelled = .error e) ∧
    ∀ name, run spec options provider cancelled ≠ .error (.document (.unplannedMap name)) := by
  obtain ⟨_, _, _, reading⟩ := buildReading built
  have first (provider : TableProvider) : errorOf (run spec options provider cancelled) =
      (faultsOf spec options provider cancelled).head? :=
    runFailure reading.planned (readingFormed reading) cancelled
  have fails (provider : TableProvider) (e : MappingError) :
      run spec options provider cancelled = .error e ↔
        (faultsOf spec options provider cancelled).head? = some e := by
    rw [← first, failureSome]
  refine ⟨fails provider, ?_, fun other same e => ?_, fun name failed => ?_⟩
  · rw [← failureNone, first, List.head?_eq_none_iff]
  · rw [fails, fails, faultsAlike same]
  · have listed := List.mem_of_head? ((fails provider _).mp failed)
    rcases faultKinds listed with ⟨_, _, same⟩ | ⟨_, _, same⟩ | same | same <;> cases same

def peopleProvider : TableProvider := fun source =>
  if source.access = "people.csv" then some peopleTable else none

theorem notesMissing : ∃ spec, build .default quotingDocument = .ok spec ∧
    run spec .default peopleProvider true = .error (.missingTable "note" "notes.csv") := by
  have first : ((build .default quotingDocument).toOption.bind fun spec =>
      (faultsOf spec .default peopleProvider true).head?) = some (.missingTable "note" "notes.csv") := by
    decide +kernel
  obtain ⟨spec, read, fault⟩ := Option.bind_eq_some_iff.mp first
  have built := optionOk.mp read
  exact ⟨spec, built, ((runFailsFirst built .default peopleProvider true).1 _).mpr fault⟩

end TabularRdf.Document
