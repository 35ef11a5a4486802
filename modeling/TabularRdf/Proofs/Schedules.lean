import TabularRdf.Proofs.SettledOutputs

/-! The freedom left to those who carry out a run. The maps may run one after the other in any order that puts
a map after all that it quotes, or in any order inside a level, and the indexes may be built in any order of
the maps: every map puts out the same, and so does the run. -/
namespace TabularRdf.Generation
open Iri Mapping Rdf Loading

structure Admissible (maps : List TriplesMap) (order : List String) : Prop where
  once : order.Perm (maps.map TriplesMap.name)
  after : ∀ m ∈ maps, ∀ q ∈ m.quotedRefs, order.idxOf q.mapping < order.idxOf m.name

def Setup.compiled (setup : Setup) : List CompiledMap :=
  setup.prepared.map fun (_, ready) => ready.map

def Setup.indexedBy (setup : Setup) (maps : List CompiledMap) : Setup :=
  let (quoteIndexes, subjectIndexes) := buildIndexes maps setup.prepared setup.resolver
  { setup with quoteIndexes, subjectIndexes }

def Setup.runInTurn (setup : Setup) (order : List String) : Except MappingError (Named MapOutput) :=
  order.foldlM (fun outputs name => do
    let (_, output) ← setup.runMap outputs name
    return outputs.set name output) []

def outcomeOf (spec : Specification) (description : List Quad) (outputs : Named MapOutput) : Outcome :=
  let ordered := spec.plan.order.filterMap fun name => outputs.lookup name
  let quads := description ++ ordered.flatMap fun output => output.quads.toList
  let reports := ordered.flatMap MapOutput.diagnostics
  { quads, reports
    stats := {
      rowsProcessed := total (ordered.map MapOutput.rows)
      quadsGenerated := quads.length
      quotedQuads := total (ordered.map MapOutput.quotedQuads)
      mapsProcessed := spec.plan.order.length
      diagnostics := reports.length } }

def runBy (carry : Setup → Except MappingError (Named MapOutput)) (spec : Specification)
    (options : GenerationOptions) (provider : TableProvider) (cancelled : Bool) :
    Except MappingError Outcome := do
  let setup ← Setup.make spec options provider cancelled
  let description ← descriptionOf options spec.authors setup.resolver
  let outputs ← carry setup
  return outcomeOf spec description outputs

theorem runByLevels {spec : Specification} {options : GenerationOptions} {provider : TableProvider}
    {cancelled : Bool} : run spec options provider cancelled =
      runBy (fun setup => setup.runLevels spec.plan.levels) spec options provider cancelled := rfl

theorem rankAlone {order : List String} {name : String} :
    Plan.rankOf (order.map fun one => [one]) name = order.idxOf name := by
  induction order with
  | nil => rfl
  | cons first rest ih =>
    rw [List.map_cons, Plan.rankOf, List.findIdx_cons, List.idxOf_cons]
    by_cases same : first = name
    · simp [same]
    · have other : ([first].contains name) = false := by simpa using Ne.symm same
      rw [other, beq_eq_false_iff_ne.mpr same]
      exact congrArg (· + 1) ih

theorem inTurnLevels {setup : Setup} {order : List String} :
    setup.runInTurn order = setup.runLevels (order.map fun one => [one]) := by
  rw [Setup.runLevels, List.foldlM_map, Setup.runInTurn]
  congr 1
  funext outputs name
  rw [Setup.runLevel, List.mapM_cons, List.mapM_nil]
  cases ran : setup.runMap outputs name with
  | error e => rfl
  | ok entry =>
    obtain ⟨_, _, rfl⟩ := mapRan ran
    rfl

theorem orderRounds {maps : List TriplesMap} {order : List String} (admissible : Admissible maps order) :
    Rounds maps (order.map fun one => [one]) := by
  refine ⟨?_, fun m mem q reference => ?_⟩
  · rw [← List.flatMap_def, List.flatMap_singleton']
    exact admissible.once
  · rw [rankAlone, rankAlone]
    exact admissible.after m mem q reference

theorem shuffledRounds {maps : List TriplesMap} {levels rounds : List (List String)}
    (laid : Rounds maps levels) (shuffled : List.Forall₂ List.Perm rounds levels) : Rounds maps rounds := by
  have ranks (name : String) : Plan.rankOf rounds name = Plan.rankOf levels name := by
    clear laid
    induction shuffled with
    | nil => rfl
    | cons head _ ih =>
      rw [Plan.rankOf, List.findIdx_cons, Plan.rankOf, List.findIdx_cons, head.contains_eq]
      exact congrArg (fun rank => bif _ then 0 else rank + 1) ih
  refine ⟨.trans (List.Perm.flatten_congr shuffled) laid.once, fun m mem q reference => ?_⟩
  rw [ranks, ranks]
  exact laid.later m mem q reference

theorem roundsFilled {maps : List TriplesMap} {rounds : List (List String)} (laid : Rounds maps rounds)
    (filled : maps ≠ []) : rounds.flatten ≠ [] := by
  intro none
  have named := laid.once
  rw [none, List.nil_perm, List.map_eq_nil_iff] at named
  exact filled named

theorem roundsRun {setup : Setup} {provider : TableProvider} {maps : List TriplesMap}
    (loaded : prepareAll provider setup.resolver maps = .ok setup.prepared) {rounds : List (List String)}
    (laid : Rounds maps rounds) (free : maps ≠ [] → setup.cancelled = false) :
    ∃ outputs, setup.runLevels rounds = .ok outputs := by
  refine levelsRun (fun planned => free ?_) fun name placed => ?_
  · rintro rfl
    exact planned laid.once.eq_nil
  · exact preparedKnown loaded (laid.once.mem_iff.mp placed)

section

variable {spec : Specification} {options : GenerationOptions} {provider : TableProvider} {setup : Setup}
  (made : setup.Made spec options provider) {indexing : List CompiledMap}
  (indexed : indexing.Perm setup.compiled)
include made indexed

theorem sameIndexes (key : IndexKey) :
    setup.quoteIndexes.lookup key = (setup.indexedBy indexing).quoteIndexes.lookup key ∧
      setup.subjectIndexes.lookup key = (setup.indexedBy indexing).subjectIndexes.lookup key := by
  have among (P : CompiledMap → Prop) : (∃ map ∈ indexing, P map) ↔ ∃ map ∈ setup.compiled, P map :=
    exists_congr fun _ => and_congr_left' indexed.mem_iff
  simp only [Setup.indexedBy, made.quotes, made.subjects, quoteIndexBuilt, subjectIndexBuilt, among]
  exact ⟨rfl, rfl⟩

variable (distinct : (spec.maps.map TriplesMap.name).Nodup) {rounds : List (List String)}
  (laid : Rounds spec.maps rounds)
include distinct laid

theorem commonIndexes :
    Common setup (setup.indexedBy indexing) spec.maps spec.maps fun _ => True := by
  refine ⟨.refl _, fun m mem _ => mem, fun m mem _ q reference => ⟨trivial, ?_⟩, fun m mem _ => ?_⟩
  · exact laid.once.mem_iff.mp (lowerPlaced (laid.later m mem q reference))
  · obtain ⟨ready, found, _⟩ := preparedOf made.prepared distinct mem
    exact ⟨ready, found, found, fun key _ => (sameIndexes made indexed key).1,
      fun key _ => (sameIndexes made indexed key).2⟩

theorem roundsAgree (free : spec.maps ≠ [] → setup.cancelled = false) {others : List (List String)}
    (relaid : Rounds spec.maps others) : ∃ outputs results, setup.runLevels rounds = .ok outputs ∧
      (setup.indexedBy indexing).runLevels others = .ok results ∧
      ∀ m ∈ spec.maps, ∃ output, outputs.lookup m.name = some output ∧ results.lookup m.name = some output := by
  have reloaded : prepareAll provider (setup.indexedBy indexing).resolver spec.maps =
    .ok (setup.indexedBy indexing).prepared := made.prepared
  obtain ⟨outputs, ran⟩ := roundsRun made.prepared laid free
  obtain ⟨results, reran⟩ := roundsRun reloaded relaid free
  refine ⟨outputs, results, ran, reran, fun m mem => ?_⟩
  exact settledAlike (commonIndexes made indexed distinct laid) made.prepared distinct laid
    (roundsSettle made.prepared distinct laid ran) (roundsSettle reloaded distinct relaid reran) mem trivial

end

theorem outcomeAlike {spec : Specification} {outputs results : Named MapOutput}
    (same : ∀ name ∈ spec.plan.order, outputs.lookup name = results.lookup name) (description : List Quad) :
    outcomeOf spec description outputs = outcomeOf spec description results := by
  have ordered : (spec.plan.order.filterMap fun name => outputs.lookup name) =
      spec.plan.order.filterMap fun name => results.lookup name := List.filterMap_congr same
  simp only [outcomeOf, ordered]

section

variable {spec : Specification} (distinct : (spec.maps.map TriplesMap.name).Nodup)
  (planned : Plan.build spec.maps = .ok spec.plan) {options : GenerationOptions} {provider : TableProvider}
include distinct planned

theorem carriedAlike {rounds : List (List String)} (laid : Rounds spec.maps rounds)
    {shuffle : List CompiledMap → List CompiledMap} (shuffled : ∀ maps, (shuffle maps).Perm maps)
    {cancelled : Bool} :
    runBy (fun setup => (setup.indexedBy (shuffle setup.compiled)).runLevels rounds) spec options provider
      cancelled = run spec options provider cancelled := by
  have own := planRounds (Plan.buildOrdered distinct planned).2
  rw [runByLevels, runBy, runBy]
  cases ready : Setup.make spec options provider cancelled with
  | error e => rfl
  | ok setup =>
    change (descriptionOf options spec.authors setup.resolver >>= _) =
      (descriptionOf options spec.authors setup.resolver >>= _)
    refine bind_congr fun description => ?_
    by_cases stopped : spec.maps ≠ [] ∧ setup.cancelled = true
    · obtain ⟨filled, flag⟩ := stopped
      have other : (setup.indexedBy (shuffle setup.compiled)).runLevels rounds = .error .cancelled :=
        levelsCancelled flag (roundsFilled laid filled)
      rw [other, levelsCancelled flag (roundsFilled own filled)]
    · have free (filled : spec.maps ≠ []) : setup.cancelled = false :=
        Bool.eq_false_iff.mpr fun flag => stopped ⟨filled, flag⟩
      obtain ⟨outputs, results, ran, reran, same⟩ :=
        roundsAgree (setupMade ready) (shuffled setup.compiled) distinct own free laid
      rw [ran, reran]
      refine congrArg Except.ok (outcomeAlike (fun name planned => ?_) description)
      obtain ⟨m, mem, rfl⟩ := List.mem_map.mp (own.once.mem_iff.mp planned)
      obtain ⟨output, first, second⟩ := same m mem
      rw [first, second]

theorem anyOrderAgrees {cancelled : Bool} :
    (∀ setup, Setup.make spec options provider cancelled = .ok setup → cancelled = false →
      ∀ order, Admissible spec.maps order → ∀ indexing, indexing.Perm setup.compiled →
      ∃ outputs results, setup.runLevels spec.plan.levels = .ok outputs ∧
        (setup.indexedBy indexing).runInTurn order = .ok results ∧ ∀ m ∈ spec.maps, ∃ output,
          outputs.lookup m.name = some output ∧ results.lookup m.name = some output) ∧
    ∀ shuffle : List CompiledMap → List CompiledMap, (∀ maps, (shuffle maps).Perm maps) →
      (∀ order, Admissible spec.maps order →
        runBy (fun setup => (setup.indexedBy (shuffle setup.compiled)).runInTurn order) spec options provider
          cancelled = run spec options provider cancelled) ∧
      ∀ rounds, List.Forall₂ List.Perm rounds spec.plan.levels →
        runBy (fun setup => (setup.indexedBy (shuffle setup.compiled)).runLevels rounds) spec options provider
          cancelled = run spec options provider cancelled := by
  have own := planRounds (Plan.buildOrdered distinct planned).2
  refine ⟨?_, fun shuffle shuffled => ⟨fun order admissible => ?_, fun rounds permuted => ?_⟩⟩
  · rintro setup ready rfl order admissible indexing indexed
    rw [inTurnLevels]
    exact roundsAgree (setupMade ready) indexed distinct own (fun _ => setupFlag ready)
      (orderRounds admissible)
  · simp only [inTurnLevels]
    exact carriedAlike distinct planned (orderRounds admissible) shuffled
  · exact carriedAlike distinct planned (shuffledRounds own permuted) shuffled

end

def nameMap (name access : String) : TriplesMap where
  name := name
  sources := [.plain access .csv]
  targets := []
  subject := ⟨[⟨"$(id)", [.column "id"]⟩], none, [], []⟩
  predicateObjects := [⟨.constant "http://example.org/name",
    .term ⟨⟨"$(name)", [.column "name"]⟩, .literal, none, none⟩, none, [], none⟩]
  graphs := []
  condition := none

def noteMap (quoted : String) : TriplesMap :=
  { nameMap "note" "notes.csv" with
    subject := ⟨[], some ⟨quoted, false, some (.single "id" "id"), .all⟩, [], []⟩ }

def surveySpec : Specification where
  maps := [noteMap "person", nameMap "person" "people.csv", nameMap "place" "places.csv"]
  prefixes := []
  sources := []
  targets := []
  base := some "http://example.org/"
  authors := []
  external := []
  index := []
  sourceMaps := []
  plan := ⟨[["person", "place"], ["note"]]⟩

def surveyTable : Table where
  schema := ⟨[⟨"id", .string, false⟩, ⟨"name", .string, true⟩]⟩
  columns := [.string #[some "1", some "2"], .string #[some "Ann", none]]
  rows := 2

theorem surveyInTurn : ∃ setup outputs results,
    Setup.make surveySpec .default (fun _ => some surveyTable) false = .ok setup ∧
    setup.runLevels surveySpec.plan.levels = .ok outputs ∧
    (setup.indexedBy setup.compiled.reverse).runInTurn ["person", "note", "place"] = .ok results ∧
    outputs.map Prod.fst = ["person", "place", "note"] ∧ results.map Prod.fst = ["person", "note", "place"] ∧
    (∀ m ∈ surveySpec.maps, ∃ output, outputs.lookup m.name = some output ∧
      results.lookup m.name = some output) ∧
    runBy (fun setup => (setup.indexedBy setup.compiled.reverse).runInTurn ["person", "note", "place"]) surveySpec
      .default (fun _ => some surveyTable) false = run surveySpec .default (fun _ => some surveyTable) false := by
  have distinct : (surveySpec.maps.map TriplesMap.name).Nodup := by decide
  have planned : Plan.build surveySpec.maps = .ok surveySpec.plan := optionOk.mp (by decide +kernel)
  have admissible : Admissible surveySpec.maps ["person", "note", "place"] := ⟨by decide, by decide⟩
  have names : ((Setup.make surveySpec .default (fun _ => some surveyTable) false).toOption.bind fun setup =>
      (setup.runLevels surveySpec.plan.levels).toOption.bind fun outputs =>
      ((setup.indexedBy setup.compiled.reverse).runInTurn ["person", "note", "place"]).toOption.map
        fun results => (outputs.map Prod.fst, results.map Prod.fst)) =
      some (["person", "place", "note"], ["person", "note", "place"]) := by decide +kernel
  obtain ⟨setup, ready, rest⟩ := Option.bind_eq_some_iff.mp names
  obtain ⟨outputs, ran, rest⟩ := Option.bind_eq_some_iff.mp rest
  obtain ⟨results, reran, both⟩ := Option.map_eq_some_iff.mp rest
  obtain ⟨first, second⟩ := Prod.mk.inj both
  have made := optionOk.mp ready
  have agree := @anyOrderAgrees surveySpec distinct planned .default (fun _ => some surveyTable) false
  obtain ⟨_, _, given, regiven, same⟩ :=
    agree.1 setup made rfl _ admissible setup.compiled.reverse (List.reverse_perm _)
  cases Except.ok.inj (given.symm.trans (optionOk.mp ran))
  cases Except.ok.inj (regiven.symm.trans (optionOk.mp reran))
  refine ⟨setup, outputs, results, made, given, regiven, first, second, same, ?_⟩
  exact (agree.2 List.reverse List.reverse_perm).1 _ admissible

end TabularRdf.Generation
