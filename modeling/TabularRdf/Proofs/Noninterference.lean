import Mathlib.Logic.Relation
import TabularRdf.Proofs.Schedules

/-! What a map contributes to a run depends on the map, on the maps that can be reached from it by references,
and on their tables. Nothing else in the specification or among the tables has a say in it. -/
namespace TabularRdf.Generation
open Iri Mapping Rdf Loading

def Refers (maps : List TriplesMap) (name other : String) : Prop :=
  ∃ m ∈ maps, m.name = name ∧ other ∈ m.referencedMappings

structure SameMap (left right : Specification) (first second : TableProvider) (name : String) : Prop where
  map : ∀ m, m.name = name → (m ∈ left.maps ↔ m ∈ right.maps)
  tables : ∀ m ∈ left.maps, m.name = name → m.sources.map first = m.sources.map second

/-- What a map puts out in a run, and where it stands in the outcome. -/
structure Contributes (spec : Specification) (options : GenerationOptions) (provider : TableProvider)
    (cancelled : Bool) (outcome : Outcome) (name : String) (output : MapOutput) : Prop where
  ran : ∃ setup outputs, Setup.make spec options provider cancelled = .ok setup ∧
    setup.runLevels spec.plan.levels = .ok outputs ∧ outputs.lookup name = some output
  quads : ∃ before after, outcome.quads = before ++ output.quads.toList ++ after
  reports : ∃ before after, outcome.reports = before ++ output.diagnostics ++ after

theorem quotedReferenced {m : TriplesMap} {q : QuotedRef} (reference : q ∈ m.quotedRefs) :
    q.mapping ∈ m.referencedMappings := by
  rcases List.mem_append.mp reference with ofSubject | ofObject
  · exact List.mem_append_left _ (List.mem_map_of_mem ofSubject)
  · obtain ⟨po, listed, quoted⟩ := List.mem_filterMap.mp ofObject
    refine List.mem_append_right _ (List.mem_filterMap.mpr ⟨po, listed, ?_⟩)
    cases kind : po.object <;> rw [kind] at quoted <;> cases quoted
    rfl

theorem subjectReferenced {m : TriplesMap} {po : PredicateObject} (listed : po ∈ m.predicateObjects)
    {r : MappingRef} (reference : po.object = .reference r) : r.mapping ∈ m.referencedMappings :=
  List.mem_append_right _ (List.mem_filterMap.mpr ⟨po, listed, by rw [reference]; rfl⟩)

theorem preparedAlike {first second : TableProvider} {m : TriplesMap}
    (tables : m.sources.map first = m.sources.map second) {left right : Resolver} (alike : left.Alike right) :
    prepare first left m = prepare second right m := by
  have fetched : tablesOf first m = tablesOf second m := by
    refine mappedAlike fun source mem => ?_
    have same : first source = second source := List.map_inj_left.mp tables source mem
    rw [same]
  rw [prepare, prepare, fetched, sameCompiled alike]

section

variable {left right : Specification} {options others : GenerationOptions} {first second : TableProvider}
  {own other : Setup} (made : own.Made left options first) (remade : other.Made right others second)
  (alike : (resolverOf left options).Alike (resolverOf right others))
  (distinct : (left.maps.map TriplesMap.name).Nodup) (redistinct : (right.maps.map TriplesMap.name).Nodup)
include made remade alike distinct redistinct

theorem readyAlike {name : String} (same : SameMap left right first second name) :
    own.prepared.lookup name = other.prepared.lookup name := by
  cases found : own.prepared.lookup name with
  | none =>
    cases there : other.prepared.lookup name with
    | none => rfl
    | some ready =>
      obtain ⟨m, mem, named, _⟩ := preparedOrigin remade.prepared there
      obtain ⟨_, known, _⟩ := preparedOf made.prepared distinct ((same.map m named).mpr mem)
      rw [named, found] at known
      contradiction
  | some ready =>
    obtain ⟨m, mem, rfl, done⟩ := preparedOrigin made.prepared found
    obtain ⟨again, there, redone⟩ := preparedOf remade.prepared redistinct ((same.map m rfl).mp mem)
    rw [made.resolver, preparedAlike (same.tables m mem rfl) alike, ← remade.resolver] at done
    rw [there, ← Except.ok.inj (done.symm.trans redone)]

section

variable {name : String} {ready : Prepared} (found : own.prepared.lookup name = some ready)
  (same : SameMap left right first second name)
include found same

theorem quotesAlike {key : IndexKey} (listed : key ∈ ready.map.quoteKeys)
    (parent : SameMap left right first second key.1) :
    own.quoteIndexes.lookup key = other.quoteIndexes.lookup key := by
  have there := (readyAlike made remade alike distinct redistinct same).symm.trans found
  by_cases keyed : key.2 = []
  · rw [made.quotes, remade.quotes, quoteIndexBuilt, quoteIndexBuilt, if_neg fun h => h.2 keyed,
      if_neg fun h => h.2 keyed]
  · rw [quoteIndexed made found listed keyed, quoteIndexed remade there listed keyed, quoteIndexFor,
      quoteIndexFor, readyAlike made remade alike distinct redistinct parent]

theorem subjectsOfAlike {key : IndexKey} (listed : key ∈ ready.map.subjectKeys)
    (parent : SameMap left right first second key.1) :
    own.subjectIndexes.lookup key = other.subjectIndexes.lookup key := by
  have there := (readyAlike made remade alike distinct redistinct same).symm.trans found
  rw [subjectIndexed made found listed, subjectIndexed remade there listed]
  have resolvers : own.resolver.Alike other.resolver := by rwa [made.resolver, remade.resolver]
  have rows (terms : List CompiledTerm) : SubjectIndex.rowSubjects terms own.resolver =
      SubjectIndex.rowSubjects terms other.resolver := funext (sameSubjects resolvers terms)
  simp only [subjectIndexFor, SubjectIndex.build, rows,
    readyAlike made remade alike distinct redistinct parent]

end

theorem commonReached {rounds : List (List String)} (laid : Rounds left.maps rounds) {name : String}
    (same : ∀ reached, Relation.ReflTransGen (Refers left.maps) name reached →
      SameMap left right first second reached) :
    Common own other left.maps right.maps (Relation.ReflTransGen (Refers left.maps) name) := by
  refine ⟨by rwa [made.resolver, remade.resolver], fun m mem reached => ((same _ reached).map m rfl).mp mem,
    fun m mem reached q reference => ⟨reached.tail ⟨m, mem, rfl, quotedReferenced reference⟩, ?_⟩,
    fun m mem reached => ?_⟩
  · exact laid.once.mem_iff.mp (lowerPlaced (laid.later m mem q reference))
  · obtain ⟨ready, found, done⟩ := preparedOf made.prepared distinct mem
    have compiled := (prepareOk done).2
    refine ⟨ready, found,
      (readyAlike made remade alike distinct redistinct (same _ reached)).symm.trans found,
      fun key listed => ?_, fun key listed => ?_⟩
    · obtain ⟨q, reference, rfl⟩ := quoteKeyOrigin compiled listed
      exact quotesAlike made remade alike distinct redistinct found (same _ reached) listed
        (same _ (reached.tail ⟨m, mem, rfl, quotedReferenced reference⟩))
    · obtain ⟨po, entry, r, reference, rfl⟩ := subjectKeyOrigin compiled listed
      exact subjectsOfAlike made remade alike distinct redistinct found (same _ reached) listed
        (same _ (reached.tail ⟨m, mem, rfl, subjectReferenced entry reference⟩))

end

theorem ranStages {spec : Specification} {options : GenerationOptions} {provider : TableProvider}
    {cancelled : Bool} {outcome : Outcome} (ran : run spec options provider cancelled = .ok outcome) :
    ∃ setup description outputs, Setup.make spec options provider cancelled = .ok setup ∧
      setup.runLevels spec.plan.levels = .ok outputs ∧ outcome = outcomeOf spec description outputs := by
  rw [runByLevels] at ran
  simp only [runBy, boundOk, pureOk] at ran
  obtain ⟨setup, made, description, _, outputs, levels, rfl⟩ := ran
  exact ⟨setup, description, outputs, made, levels, rfl⟩

theorem contributes {spec : Specification} {options : GenerationOptions} {provider : TableProvider}
    {cancelled : Bool} {setup : Setup} {description : List Quad} {outputs : Named MapOutput}
    (made : Setup.make spec options provider cancelled = .ok setup)
    (ran : setup.runLevels spec.plan.levels = .ok outputs) {name : String} {output : MapOutput}
    (given : outputs.lookup name = some output) (planned : name ∈ spec.plan.order) :
    Contributes spec options provider cancelled (outcomeOf spec description outputs) name output := by
  obtain ⟨before, after, split⟩ := List.append_of_mem planned
  have ordered : (spec.plan.order.filterMap fun name => outputs.lookup name) =
      (before.filterMap fun name => outputs.lookup name) ++ output ::
        after.filterMap fun name => outputs.lookup name := by
    rw [split, List.filterMap_append, List.filterMap_cons, given]
  refine ⟨⟨setup, outputs, made, ran, given⟩, ?_, ?_⟩
  · refine ⟨description ++ (before.filterMap fun name => outputs.lookup name).flatMap fun output =>
      output.quads.toList, (after.filterMap fun name => outputs.lookup name).flatMap fun output =>
      output.quads.toList, ?_⟩
    simp only [outcomeOf, ordered, List.flatMap_append, List.flatMap_cons, List.append_assoc]
  · refine ⟨(before.filterMap fun name => outputs.lookup name).flatMap MapOutput.diagnostics,
      (after.filterMap fun name => outputs.lookup name).flatMap MapOutput.diagnostics, ?_⟩
    simp only [outcomeOf, ordered, List.flatMap_append, List.flatMap_cons, List.append_assoc]

theorem contributionShared {left right : Specification} {options others : GenerationOptions}
    {first second : TableProvider} {cancelled stopped : Bool} {outcome result : Outcome}
    (distinct : (left.maps.map TriplesMap.name).Nodup) (planned : Plan.build left.maps = .ok left.plan)
    (redistinct : (right.maps.map TriplesMap.name).Nodup)
    (replanned : Plan.build right.maps = .ok right.plan)
    (alike : (resolverOf left options).Alike (resolverOf right others)) {m : TriplesMap} (mem : m ∈ left.maps)
    (same : ∀ reached, Relation.ReflTransGen (Refers left.maps) m.name reached →
      SameMap left right first second reached)
    (ran : run left options first cancelled = .ok outcome)
    (reran : run right others second stopped = .ok result) :
    ∃ output, Contributes left options first cancelled outcome m.name output ∧
      Contributes right others second stopped result m.name output := by
  obtain ⟨own, _, outputs, ready, levels, rfl⟩ := ranStages ran
  obtain ⟨other, _, results, remade, relevels, rfl⟩ := ranStages reran
  have laid := planRounds (Plan.buildOrdered distinct planned).2
  have relaid := planRounds (Plan.buildOrdered redistinct replanned).2
  have common := commonReached (setupMade ready) (setupMade remade) alike distinct redistinct laid same
  have settled := roundsSettle (setupMade ready).prepared distinct laid levels
  have resettled := roundsSettle (setupMade remade).prepared redistinct relaid relevels
  obtain ⟨output, given, regiven⟩ :=
    settledAlike common (setupMade ready).prepared distinct laid settled resettled mem .refl
  have there := ((same _ .refl).map m rfl).mp mem
  exact ⟨output, contributes ready levels given (laid.once.mem_iff.mpr (List.mem_map_of_mem mem)),
    contributes remade relevels regiven (relaid.once.mem_iff.mpr (List.mem_map_of_mem there))⟩

def townSpec : Specification :=
  { surveySpec with
    maps := [nameMap "town" "towns.csv", nameMap "person" "people.csv", noteMap "person"]
    plan := ⟨[["town", "person"], ["note"]]⟩ }

def townProvider : TableProvider := fun source =>
  some (if source.access = "towns.csv" then ⟨surveyTable.schema, [], 0⟩ else surveyTable)

theorem notesReach {name : String} (path : Relation.ReflTransGen (Refers surveySpec.maps) "note" name) :
    name = "note" ∨ name = "person" := by
  cases path with
  | refl => exact .inl rfl
  | tail _ step =>
    obtain ⟨m, mem, rfl, listed⟩ := step
    have quoted : ∀ m ∈ surveySpec.maps, ∀ other ∈ m.referencedMappings, other = "person" := by decide
    exact .inr (quoted m mem _ listed)

theorem townsApart {name : String} (path : Relation.ReflTransGen (Refers surveySpec.maps) "note" name) :
    SameMap surveySpec townSpec (fun _ => some surveyTable) townProvider name := by
  have apart : name ≠ "place" ∧ name ≠ "town" := by
    rcases notesReach path with rfl | rfl <;> decide
  refine ⟨fun m named => ?_, fun m mem _ => ?_⟩
  · have place : m ≠ nameMap "place" "places.csv" := fun same => apart.1 (named ▸ same ▸ rfl)
    have town : m ≠ nameMap "town" "towns.csv" := fun same => apart.2 (named ▸ same ▸ rfl)
    simp [surveySpec, townSpec, place, town, or_comm]
  · have elsewhere : ∀ m ∈ surveySpec.maps, ∀ source ∈ m.sources, source.access ≠ "towns.csv" := by decide
    exact List.map_congr_left fun source listed => by rw [townProvider, if_neg (elsewhere m mem source listed)]

theorem notesShared : ∃ outcome result output,
    run surveySpec .default (fun _ => some surveyTable) false = .ok outcome ∧
    run townSpec .default townProvider false = .ok result ∧
    outcome.stats.rowsProcessed = 6 ∧ result.stats.rowsProcessed = 4 ∧
    Contributes surveySpec .default (fun _ => some surveyTable) false outcome "note" output ∧
    Contributes townSpec .default townProvider false result "note" output := by
  have both : ((run surveySpec .default (fun _ => some surveyTable) false).toOption.bind fun outcome =>
      (run townSpec .default townProvider false).toOption.map fun result =>
        (outcome.stats.rowsProcessed, result.stats.rowsProcessed)) = some (6, 4) := by decide +kernel
  obtain ⟨outcome, ran, rest⟩ := Option.bind_eq_some_iff.mp both
  obtain ⟨result, reran, counts⟩ := Option.map_eq_some_iff.mp rest
  obtain ⟨first, second⟩ := Prod.mk.inj counts
  have ran := optionOk.mp ran
  have reran := optionOk.mp reran
  have planned : Plan.build surveySpec.maps = .ok surveySpec.plan := optionOk.mp (by decide +kernel)
  have replanned : Plan.build townSpec.maps = .ok townSpec.plan := optionOk.mp (by decide +kernel)
  have listed : noteMap "person" ∈ surveySpec.maps := List.mem_cons_self
  obtain ⟨output, given, regiven⟩ :=
    contributionShared (by decide) planned (by decide) replanned (.refl _) listed (fun _ => townsApart) ran reran
  exact ⟨outcome, result, output, ran, reran, first, second, given, regiven⟩

end TabularRdf.Generation
