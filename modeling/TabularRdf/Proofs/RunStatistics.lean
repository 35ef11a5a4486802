import TabularRdf.Proofs.ReportCounts
import TabularRdf.Proofs.Schedules
import TabularRdf.Proofs.WellFormedQuads

/-! The statistics of a run. A run may also be carried out by a loop that counts every output as it comes, hands
its reports to a sink, keeps it under its name and in the end takes all outputs out again by name. This loop
gives the same quads, statistics and sink, and its counters describe the tables and the quads exactly. -/
namespace TabularRdf.Generation
open Iri Mapping Rdf Loading

structure Tally where
  outputs : Named MapOutput
  stats : Stats
  sink : Diagnostics

def Tally.empty (limit : Nat) : Tally := ⟨[], ⟨0, 0, 0, 0, 0⟩, .empty limit⟩

def Tally.enter (tally : Tally) (entry : String × MapOutput) : Tally where
  outputs := tally.outputs.set entry.1 entry.2
  stats := { tally.stats with
    mapsProcessed := tally.stats.mapsProcessed + 1
    rowsProcessed := tally.stats.rowsProcessed + entry.2.rows
    quotedQuads := tally.stats.quotedQuads + entry.2.quotedQuads
    diagnostics := tally.stats.diagnostics + entry.2.diagnostics.length }
  sink := tally.sink.reportAll entry.2.diagnostics

def Setup.tallyLevel (setup : Setup) (tally : Tally) (level : List String) : Except MappingError Tally := do
  let results ← level.mapM (setup.runMap tally.outputs)
  return results.foldl Tally.enter tally

/- The quads of the outputs under some names, each taken out when its name comes. -/
def drain (outputs : Named MapOutput) : List String → List Quad
  | [] => []
  | name :: rest =>
    match outputs.lookup name with
    | some output => output.quads.toList ++ drain (outputs.filter fun entry => entry.1 ≠ name) rest
    | none => drain outputs rest

def runTallied (spec : Specification) (options : GenerationOptions) (provider : TableProvider)
    (cancelled : Bool) : Except MappingError (List Quad × Stats × Diagnostics) := do
  let setup ← Setup.make spec options provider cancelled
  let description ← descriptionOf options spec.authors setup.resolver
  let tally ← spec.plan.levels.foldlM setup.tallyLevel (.empty options.maxRecorded)
  let quads := description ++ drain tally.outputs spec.plan.order
  return (quads, { tally.stats with quadsGenerated := quads.length }, tally.sink)

def Tally.after (tally : Tally) (outputs : Named MapOutput) (done : List MapOutput) : Tally where
  outputs := outputs
  stats := { tally.stats with
    mapsProcessed := tally.stats.mapsProcessed + done.length
    rowsProcessed := tally.stats.rowsProcessed + total (done.map MapOutput.rows)
    quotedQuads := tally.stats.quotedQuads + total (done.map MapOutput.quotedQuads)
    diagnostics := tally.stats.diagnostics + (done.flatMap MapOutput.diagnostics).length }
  sink := tally.sink.reportAll (done.flatMap MapOutput.diagnostics)

theorem afterTwice (tally : Tally) (between outputs : Named MapOutput) (first second : List MapOutput) :
    (tally.after between first).after outputs second = tally.after outputs (first ++ second) := by
  simp [Tally.after, reportedTwice, totalAppend, Nat.add_assoc]

theorem enteredAfter (tally : Tally) (entry : String × MapOutput) :
    tally.enter entry = tally.after (tally.outputs.set entry.1 entry.2) [entry.2] := by
  simp [Tally.enter, Tally.after, total]

theorem entriesTallied (entries : Named MapOutput) (tally : Tally) :
    entries.foldl Tally.enter tally = tally.after (tally.outputs.setAll entries) (entries.map Prod.snd) := by
  induction entries generalizing tally with
  | nil => rfl
  | cons entry rest ih =>
    rw [List.foldl_cons, ih, enteredAfter, afterTwice]
    rfl

section

variable {setup : Setup}

theorem levelTallied {level : List String} {tally : Tally} : setup.tallyLevel tally level =
    (level.mapM (setup.runMap tally.outputs)).map fun results =>
      tally.after (tally.outputs.setAll results) (results.map Prod.snd) := by
  unfold Setup.tallyLevel
  simp only [entriesTallied]
  rfl

theorem levelKept {level : List String} {seen outputs : Named MapOutput} {rest : List (List String)}
    {results : Named MapOutput} (once : (level ++ rest.flatten).Nodup)
    (mapped : level.mapM (setup.runMap seen) = .ok results)
    (ran : rest.foldlM setup.runLevel (seen.setAll results) = .ok outputs) :
    level.filterMap (fun name => outputs.lookup name) = results.map Prod.snd := by
  have step : setup.runLevel seen level = .ok (seen.setAll results) := by
    rw [Setup.runLevel, mapped]
    rfl
  obtain ⟨_, again, names, _⟩ := levelRan step
  cases Except.ok.inj (again.symm.trans mapped)
  obtain ⟨distinct, _, apart⟩ := List.nodup_append.mp once
  rw [← names, List.filterMap_map, ← List.filterMap_eq_map]
  refine List.filterMap_congr fun entry listed => ?_
  obtain ⟨name, output⟩ := entry
  have here : name ∈ level := names ▸ List.mem_map_of_mem listed
  have kept := levelsKeep ran fun late => apart name here name late rfl
  exact kept.trans (Named.setAllOf (names.symm ▸ distinct) listed)

theorem levelsTallied {levels : List (List String)} (once : levels.flatten.Nodup) (tally : Tally) :
    levels.foldlM setup.tallyLevel tally = (levels.foldlM setup.runLevel tally.outputs).map fun outputs =>
      tally.after outputs (levels.flatten.filterMap fun name => outputs.lookup name) := by
  -- the loop sees the outputs it has itself entered, so the tally varies along the levels
  induction levels generalizing tally with
  | nil => rfl
  | cons level rest ih =>
    rw [List.flatten_cons] at once
    rw [List.foldlM_cons, List.foldlM_cons, levelTallied, Setup.runLevel]
    cases mapped : level.mapM (setup.runMap tally.outputs) with
    | error e => rfl
    | ok results =>
      refine (ih (List.nodup_append.mp once).2.1 _).trans ?_
      change (rest.foldlM setup.runLevel (tally.outputs.setAll results)).map _ =
        (rest.foldlM setup.runLevel (tally.outputs.setAll results)).map _
      cases ran : rest.foldlM setup.runLevel (tally.outputs.setAll results) with
      | error e => rfl
      | ok outputs =>
        refine congrArg Except.ok ((afterTwice ..).trans ?_)
        simp only [List.flatten_cons, List.filterMap_append, levelKept once mapped ran]

end

theorem drained {order : List String} (once : order.Nodup) (outputs : Named MapOutput) :
    drain outputs order =
      (order.filterMap fun name => outputs.lookup name).flatMap fun output => output.quads.toList := by
  induction order generalizing outputs with
  | nil => rfl
  | cons name rest ih =>
    obtain ⟨fresh, later⟩ := List.nodup_cons.mp once
    rw [drain, List.filterMap_cons]
    cases outputs.lookup name with
    | none => exact ih later outputs
    | some output =>
      have others : (rest.filterMap fun one =>
          (outputs.filter fun entry => entry.1 ≠ name).lookup one) =
          rest.filterMap fun one => outputs.lookup one :=
        List.filterMap_congr fun one mem => Named.lookupWithout fun same => fresh (same ▸ mem)
      rw [List.flatMap_cons, ← others, ← ih later]

theorem plannedRan {p : Plan} (once : p.order.Nodup) {setup : Setup} {outputs : Named MapOutput}
    (ran : setup.runLevels p.levels = .ok outputs) :
    List.Forall₂ (fun name output => outputs.lookup name = some output) p.order
      (p.order.filterMap fun name => outputs.lookup name) := by
  refine foundInOrder fun name planned => ?_
  obtain ⟨_, _, _, _, found⟩ := earlierSeen once (List.append_nil p.levels).symm ran planned
  exact ⟨_, found⟩

theorem talliedAlike {spec : Specification} (once : spec.plan.order.Nodup) {options : GenerationOptions}
    {provider : TableProvider} {cancelled : Bool} : runTallied spec options provider cancelled =
      (run spec options provider cancelled).map fun outcome =>
        (outcome.quads, outcome.stats, outcome.diagnostics options) := by
  rw [runByLevels, runTallied, runBy]
  cases Setup.make spec options provider cancelled with
  | error e => rfl
  | ok setup =>
    simp only [bind, Except.bind]
    cases descriptionOf options spec.authors setup.resolver with
    | error e => rfl
    | ok description =>
      have tallied : spec.plan.levels.foldlM setup.tallyLevel (.empty options.maxRecorded) =
          (setup.runLevels spec.plan.levels).map fun outputs => (Tally.empty options.maxRecorded).after outputs
            (spec.plan.order.filterMap fun name => outputs.lookup name) := levelsTallied once _
      rw [tallied]
      cases ran : setup.runLevels spec.plan.levels with
      | error e => rfl
      | ok outputs =>
        have all := (plannedRan once ran).length_eq
        refine congrArg Except.ok (Prod.ext ?_ (Prod.ext ?_ rfl))
        · exact congrArg (description ++ ·) (drained once outputs)
        · simp only [outcomeOf, Tally.after, Tally.empty, Nat.zero_add, ← all, drained once outputs]

theorem descriptionPlain {options : GenerationOptions} {authors : List Author} {resolver : Resolver}
    {quads : List Quad} (described : descriptionOf options authors resolver = .ok quads) :
    ∀ quad ∈ quads, quad.hasQuoted = false := by
  intro quad mem
  obtain ⟨_, _, _, _, _, rfl, _, _, origin⟩ := descriptionOrigin described quad mem
  rcases origin with rfl | ⟨_, rfl⟩ | ⟨_, _, _, rfl, _⟩ <;> rfl

theorem tablesFetched {provider : TableProvider} {m : TriplesMap} {tables : List Table}
    (fetched : tablesOf provider m = .ok tables) : m.sources.filterMap provider = tables :=
  foundPaired (tablesPaired fetched)

def rowsOf (provider : TableProvider) (m : TriplesMap) : Nat :=
  total ((m.sources.filterMap provider).map Table.rows)

structure MapOutput.Counted (output : MapOutput) (provider : TableProvider) (m : TriplesMap) : Prop where
  rows : output.rows = rowsOf provider m
  quoted : output.quotedQuads = output.quads.toList.countP Quad.hasQuoted

structure Outcome.Counted (outcome : Outcome) (spec : Specification) (provider : TableProvider) : Prop where
  quads : outcome.stats.quadsGenerated = outcome.quads.length
  quoted : outcome.stats.quotedQuads = outcome.quads.countP Quad.hasQuoted
  maps : outcome.stats.mapsProcessed = spec.maps.length
  tables : ∀ m ∈ spec.maps, tablesOf provider m = .ok (m.sources.filterMap provider)
  rows : outcome.stats.rowsProcessed = total (spec.maps.map (rowsOf provider))
  reports : outcome.stats.diagnostics = outcome.reports.length

structure Outcome.Gathers (outcome : Outcome) (p : Plan) (description : List Quad) (outputs : Named MapOutput)
    (done : List MapOutput) : Prop where
  planned : List.Forall₂ (fun name output => outputs.lookup name = some output) p.order done
  quads : outcome.quads = description ++ done.flatMap fun output => output.quads.toList
  reports : outcome.reports = done.flatMap MapOutput.diagnostics

section

variable {spec : Specification} {options : GenerationOptions} {provider : TableProvider} {setup : Setup}
  {outputs : Named MapOutput}

theorem settledCounted (made : setup.Made spec options provider)
    (distinct : (spec.maps.map TriplesMap.name).Nodup) (settled : setup.Settled spec.maps outputs)
    {m : TriplesMap} (mem : m ∈ spec.maps) :
    ∃ output, outputs.lookup m.name = some output ∧ output.Counted provider m := by
  obtain ⟨ready, found, output⟩ := settled m mem
  obtain ⟨other, there, done⟩ := preparedOf made.prepared distinct mem
  cases Option.some.inj (found.symm.trans there)
  refine ⟨_, output, ?_, rfl⟩
  rw [rowsOf, tablesFetched (prepareOk done).1]
  rfl

variable (named : spec.plan.order.Perm (spec.maps.map TriplesMap.name))
  (counted : ∀ m ∈ spec.maps, ∃ output, outputs.lookup m.name = some output ∧ output.Counted provider m)
include named counted

theorem rowsCounted : total ((spec.plan.order.filterMap fun name => outputs.lookup name).map MapOutput.rows) =
    total (spec.maps.map (rowsOf provider)) := by
  have each : ∀ m ∈ spec.maps, (outputs.lookup m.name).map MapOutput.rows = some (rowsOf provider m) := by
    intro m mem
    obtain ⟨output, found, exact⟩ := counted m mem
    rw [found, Option.map_some, exact.rows]
  have inDocument := (named.filterMap fun name => (outputs.lookup name).map MapOutput.rows).sum_nat
  rw [List.filterMap_map] at inDocument
  rw [List.map_filterMap]
  refine inDocument.trans (congrArg List.sum ?_)
  rw [← List.filterMap_eq_map]
  exact List.filterMap_congr each

theorem quotedCounted :
    total ((spec.plan.order.filterMap fun name => outputs.lookup name).map MapOutput.quotedQuads) =
      ((spec.plan.order.filterMap fun name => outputs.lookup name).flatMap
        fun output => output.quads.toList).countP Quad.hasQuoted := by
  rw [List.countP_flatMap]
  refine congrArg List.sum (List.map_congr_left fun output mem => ?_)
  obtain ⟨name, planned, found⟩ := List.mem_filterMap.mp mem
  obtain ⟨m, here, rfl⟩ := List.mem_map.mp (named.mem_iff.mp planned)
  obtain ⟨other, there, exact⟩ := counted m here
  cases Option.some.inj (found.symm.trans there)
  exact exact.quoted

end

theorem statisticsExact {spec : Specification} (distinct : (spec.maps.map TriplesMap.name).Nodup)
    (planned : Plan.build spec.maps = .ok spec.plan) {options : GenerationOptions} {provider : TableProvider}
    {cancelled : Bool} {outcome : Outcome} (ran : run spec options provider cancelled = .ok outcome) :
    outcome.Counted spec provider ∧
    (outcome.diagnostics options).Holds options.maxRecorded outcome.reports ∧
    outcome.stats.diagnostics = (outcome.diagnostics options).total ∧
    ((outcome.diagnostics options).truncated ↔ (outcome.diagnostics options).recorded ≠ outcome.reports) ∧
    runTallied spec options provider cancelled =
      .ok (outcome.quads, outcome.stats, outcome.diagnostics options) ∧
    ∃ setup description outputs done, Setup.make spec options provider cancelled = .ok setup ∧
      descriptionOf options spec.authors setup.resolver = .ok description ∧
      setup.runLevels spec.plan.levels = .ok outputs ∧ outcome.Gathers spec.plan description outputs done := by
  have ordered := Plan.buildOrdered distinct planned |>.2
  have once : spec.plan.order.Nodup := ordered.once.nodup_iff.mpr distinct
  have held := reportsHeld (nothingHeld options.maxRecorded) outcome.reports
  rw [List.nil_append] at held
  have tallied : runTallied spec options provider cancelled = _ := talliedAlike once
  rw [ran] at tallied
  rw [runByLevels] at ran
  simp only [runBy, boundOk, pureOk] at ran
  obtain ⟨setup, made, description, described, outputs, levels, rfl⟩ := ran
  have settled := roundsSettle (setupMade made).prepared distinct (planRounds ordered) levels
  have counted : ∀ m ∈ spec.maps, _ := fun _ mem => settledCounted (setupMade made) distinct settled mem
  refine ⟨⟨rfl, ?_, ?_, ?_, rowsCounted ordered.once counted, rfl⟩, held, ?_, truncatedDropped held, tallied,
    setup, description, outputs, _, made, described, levels, plannedRan once levels, rfl, rfl⟩
  · refine (quotedCounted ordered.once counted).trans ?_
    have plain : description.countP Quad.hasQuoted = 0 :=
      List.countP_eq_zero.mpr fun quad mem => by rw [descriptionPlain described quad mem]; decide
    simp only [outcomeOf, List.countP_append, plain, Nat.zero_add]
  · exact ordered.once.length_eq.trans (List.length_map _)
  · intro m mem
    obtain ⟨ready, _, done⟩ := preparedOf (setupMade made).prepared distinct mem
    have fetched := (prepareOk done).1
    rw [fetched, tablesFetched fetched]
  · exact held.all.symm

def pairedSpec : Specification :=
  { surveySpec with maps :=
      [{ noteMap "person" with subject := ⟨[], some ⟨"person", false, none, .all⟩, [], []⟩ },
        nameMap "person" "people.csv", nameMap "place" "places.csv"] }

def twoReports : GenerationOptions := { GenerationOptions.default with maxRecorded := 2 }

theorem pairedCounted : ∃ outcome,
    run pairedSpec twoReports (fun _ => some surveyTable) false = .ok outcome ∧
    outcome.stats = ⟨6, 3, 1, 3, 3⟩ ∧ outcome.Counted pairedSpec (fun _ => some surveyTable) ∧
    (outcome.diagnostics twoReports).Holds 2 outcome.reports ∧
    (outcome.diagnostics twoReports).count "join_no_match" = 1 ∧
    (outcome.diagnostics twoReports).truncated ∧
    (outcome.diagnostics twoReports).recorded ≠ outcome.reports ∧
    runTallied pairedSpec twoReports (fun _ => some surveyTable) false =
      .ok (outcome.quads, outcome.stats, outcome.diagnostics twoReports) := by
  have distinct : (pairedSpec.maps.map TriplesMap.name).Nodup := by decide
  have planned : Plan.build pairedSpec.maps = .ok pairedSpec.plan := optionOk.mp (by decide +kernel)
  have counts : (run pairedSpec twoReports (fun _ => some surveyTable) false).toOption.map (fun outcome =>
      (outcome.stats, (outcome.diagnostics twoReports).count "join_no_match",
        (outcome.diagnostics twoReports).truncated)) = some (⟨6, 3, 1, 3, 3⟩, 1, true) := by decide +kernel
  obtain ⟨outcome, given, same⟩ := Option.map_eq_some_iff.mp counts
  obtain ⟨stats, both⟩ := Prod.mk.inj same
  obtain ⟨missed, dropped⟩ := Prod.mk.inj both
  have ran := optionOk.mp given
  obtain ⟨counted, held, _, truncated, tallied, _⟩ := statisticsExact distinct planned ran
  exact ⟨outcome, ran, stats, counted, held, missed, dropped, truncated.mp dropped, tallied⟩

end TabularRdf.Generation
