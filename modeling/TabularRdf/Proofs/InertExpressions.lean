import TabularRdf.Proofs.LockStep
import TabularRdf.Proofs.SealedPayloads
import TabularRdf.Proofs.SilentRows
import TabularRdf.Proofs.WellFormedQuads

/-! Expressions that are carried without being evaluated put out nothing. A run gives the same quads when every
condition, every entry with a function and every subject function is left out of the maps, also where other
maps quote them. -/
namespace TabularRdf.Mapping

def TriplesMap.plain (m : TriplesMap) : TriplesMap :=
  { m with
    subject := { m.subject with functions := [] }
    predicateObjects := (m.predicateObjects.filter fun po => !po.object.isFunction).map fun po =>
      { po with condition := none }
    condition := none }

def Specification.plain (spec : Specification) : Specification :=
  { spec with maps := spec.maps.map TriplesMap.plain }

theorem plainRefs (m : TriplesMap) : m.plain.quotedRefs = m.quotedRefs := by
  rw [TriplesMap.quotedRefs, TriplesMap.quotedRefs, TriplesMap.plain, List.filterMap_map, List.filterMap_filter]
  congr 2
  funext po
  cases kind : po.object <;> simp [kind, ObjectSpec.isFunction, ObjectSpec.quoted?]

theorem plainPlan (spec : Specification) : Plan.build spec.plain.maps = Plan.build spec.maps := by
  refine Plan.buildAlike (List.forall₂_map_left_iff.mpr (List.forall₂_same.mpr fun m _ => ?_))
  exact ⟨rfl, plainRefs m⟩

end TabularRdf.Mapping

namespace TabularRdf.Generation
open Iri Mapping Rdf Loading

def CompiledObject.isFunction : CompiledObject → Bool
  | .function => true
  | _ => false

def CompiledMap.plain (map : CompiledMap) : CompiledMap :=
  { map with entries := map.entries.filter fun entry => !entry.object.isFunction, deferred := [] }

def Prepared.plain (ready : Prepared) : Prepared := { ready with map := ready.map.plain }

def Setup.plain (setup : Setup) : Setup := { setup with prepared := setup.prepared.mapValues Prepared.plain }

section

variable {resolver : Resolver} {provider : TableProvider}

theorem functionKept {po : PredicateObject} {entry : CompiledEntry}
    (compiled : CompiledEntry.compile resolver po = .ok entry) :
    po.object.isFunction = entry.object.isFunction := by
  rw [Bool.eq_iff_iff, functionCompiled (compiledObject compiled)]
  cases entry.object <;> simp [CompiledObject.isFunction]

theorem entriesPlain {pos : List PredicateObject} {entries : List CompiledEntry}
    (compiled : pos.mapM (CompiledEntry.compile resolver) = .ok entries) :
    ((pos.filter fun po => !po.object.isFunction).map fun po => { po with condition := none }).mapM
      (CompiledEntry.compile resolver) = .ok (entries.filter fun entry => !entry.object.isFunction) := by
  refine mappedOk.mpr (List.forall₂_map_left_iff.mpr ?_)
  have pairs := mappedOk.mp compiled
  clear compiled
  induction pairs with
  | nil => exact .nil
  | cons head _ ih =>
    rw [List.filter_cons, List.filter_cons, functionKept head]
    split
    · exact .cons head ih
    · exact ih

theorem kindsPlain (m : TriplesMap) : CompiledMap.expressionKinds m.plain = [] := by
  simp only [CompiledMap.expressionKinds, TriplesMap.plain, List.flatMap_map, Option.toList_none, List.append_nil,
    List.map_nil, List.nil_append, List.flatMap_eq_nil_iff, List.mem_filter]
  rintro po ⟨_, valued⟩
  cases kind : po.object <;> simp_all [ObjectSpec.isFunction]

theorem compiledPlain {m : TriplesMap} {map : CompiledMap} (compiled : CompiledMap.compile m resolver = .ok map) :
    CompiledMap.compile m.plain resolver = .ok map.plain := by
  simp only [CompiledMap.compile, boundOk, pureOk] at compiled
  obtain ⟨subjects, subject, entries, mapped, ofSubject, graphs, ofMap, rest, rfl⟩ := compiled
  simp only [CompiledMap.compile, boundOk, pureOk]
  refine ⟨subjects, subject, _, entriesPlain mapped, ofSubject, graphs, ofMap, rest, ?_⟩
  rw [kindsPlain]
  rfl

theorem preparedPlain {maps : List TriplesMap} {all : Named Prepared}
    (loaded : prepareAll provider resolver maps = .ok all) :
    prepareAll provider resolver (maps.map TriplesMap.plain) = .ok (all.mapValues Prepared.plain) := by
  simp only [prepareAll, boundOk, pureOk] at loaded
  obtain ⟨entries, mapped, rfl⟩ := loaded
  rw [Named.setAllMapped, prepareAll]
  refine boundOk.mpr ⟨_, mappedOk.mpr ?_, rfl⟩
  refine List.forall₂_map_left_iff.mpr (List.forall₂_map_right_iff.mpr ((mappedOk.mp mapped).imp ?_))
  intro m entry given
  simp only [prepare, boundOk, pureOk] at given
  obtain ⟨_, ⟨tables, fetched, map, compiled, rfl⟩, rfl⟩ := given
  simp only [prepare, boundOk, pureOk]
  exact ⟨_, ⟨tables, fetched, map.plain, compiledPlain compiled, rfl⟩, rfl⟩

end

theorem keysPlain (map : CompiledMap) :
    map.plain.quoteKeys = map.quoteKeys ∧ map.plain.subjectKeys = map.subjectKeys := by
  simp only [CompiledMap.quoteKeys, CompiledMap.subjectKeys, CompiledMap.plain, List.filterMap_filter]
  refine ⟨congrArg _ (List.filterMap_congr fun entry _ => ?_), List.filterMap_congr fun entry _ => ?_⟩ <;>
    cases kind : entry.object <;> simp [CompiledObject.isFunction]

theorem indexesPlain (maps : List CompiledMap) (all : Named Prepared) (resolver : Resolver) :
    buildIndexes (maps.map CompiledMap.plain) (all.mapValues Prepared.plain) resolver =
      buildIndexes maps all resolver := by
  have quotes : quoteIndexFor (all.mapValues Prepared.plain) = quoteIndexFor all := by
    funext key
    simp only [quoteIndexFor, Named.lookupMapped, Option.map_map]
    rfl
  have subjects : subjectIndexFor (all.mapValues Prepared.plain) resolver = subjectIndexFor all resolver := by
    funext key
    simp only [subjectIndexFor, Named.lookupMapped, Option.map_map]
    rfl
  simp only [buildIndexes, quotes, subjects, List.flatMap_map, keysPlain]

theorem setupPlain {spec : Specification} {options : GenerationOptions} {provider : TableProvider} {cancelled : Bool}
    {setup : Setup} (made : Setup.make spec options provider cancelled = .ok setup) :
    Setup.make spec.plain options provider cancelled = .ok setup.plain := by
  simp only [Setup.make, boundOk, pureOk] at made
  obtain ⟨prepared, loaded, rfl⟩ := made
  have maps : (prepared.mapValues Prepared.plain).map (fun entry => entry.2.map) =
      (prepared.map fun entry => entry.2.map).map CompiledMap.plain := by
    simp only [Named.mapValues, List.map_map]
    rfl
  have indexes := indexesPlain (prepared.map fun entry => entry.2.map) prepared (resolverOf spec options)
  rw [← maps] at indexes
  refine boundOk.mpr ⟨_, preparedPlain loaded, ?_⟩
  exact congrArg (fun indexes => Except.ok (Setup.mk (resolverOf spec options) (prepared.mapValues Prepared.plain)
    indexes.1 indexes.2 cancelled)) indexes

def MapOutput.silent (output : MapOutput) : MapOutput := { output with diagnostics := [] }

def MapOutput.SameQuads (output result : MapOutput) : Prop := output.silent = result.silent

theorem quotedSilent {output result : MapOutput} (same : output.SameQuads result) :
    output.quoteRows = result.quoteRows :=
  congrArg (fun o => o.quoteRows) same

theorem silentRows (map : CompiledMap) (tables : List Table) (resolver : Resolver) (context : JoinContext) :
    (generateMap map tables resolver context).silent =
      let rows := emittedRows map tables resolver context
      let quads := rows.flatMap List.flatten
      ⟨quads.toArray, tableSpansFrom 0 (rows.map fun rows => rows.map List.length),
        total (tables.map Table.rows), quads.countP Quad.hasQuoted, []⟩ := by
  simp only [MapOutput.silent, generateMap, ← outputRows, List.flatMap_map, List.map_map]
  rfl

section

variable {outputs results : Named MapOutput} (aligned : Aligned MapOutput.SameQuads outputs results)
  (setup : Setup) (table : Table) (position : Position)
include aligned

theorem quotedTogether (q : QuotedRef) (probe : Probe) :
    (setup.context outputs).quotedTerms q probe position =
      (setup.plain.context results).quotedTerms q probe position := by
  have seen := aligned q.mapping
  simp only [JoinContext.quotedTerms, Setup.context]
  generalize outputs.lookup q.mapping = output at seen
  generalize results.lookup q.mapping = result at seen
  cases seen with
  | none => rfl
  | some same =>
    simp only [quotedSilent same]
    rfl

theorem rowPlain (map : CompiledMap) :
    RowSite.quads ⟨setup.resolver, setup.context outputs, table, position⟩ map =
      RowSite.quads ⟨setup.resolver, setup.plain.context results, table, position⟩ map.plain := by
  have quoted := quotedTogether aligned setup position
  have subjects : RowSite.subjects ⟨setup.resolver, setup.context outputs, table, position⟩ map =
      RowSite.subjects ⟨setup.resolver, setup.plain.context results, table, position⟩ map.plain := by
    simp only [RowSite.subjects, RowSite.quoted, quoted, CompiledMap.plain]
    rfl
  have entries : RowSite.entryQuads ⟨setup.resolver, setup.context outputs, table, position⟩ map =
      RowSite.entryQuads ⟨setup.resolver, setup.plain.context results, table, position⟩ map.plain := by
    funext subject entry
    simp only [RowSite.entryQuads, RowSite.objects, RowSite.quoted, quoted]
    rfl
  rw [RowSite.quads, RowSite.quads, ← subjects]
  refine congrArg (fun f => List.flatMap f _) (funext fun subject => ?_)
  rw [← entries]
  change _ = (map.entries.filter fun entry => !entry.object.isFunction).flatMap _
  induction map.entries with
  | nil => rfl
  | cons entry rest ih =>
    rw [List.flatMap_cons, List.filter_cons, ih]
    split
    · rw [List.flatMap_cons]
    · rename_i function
      refine (congrArg (· ++ _) (RowSite.lackingQuads (.inr ?_) _ subject)).trans (List.nil_append _)
      cases kind : entry.object <;> simp_all [CompiledObject.isFunction, RowSite.objects]

theorem outputPlain (ready : Prepared) :
    (setup.output outputs ready).SameQuads (setup.plain.output results ready.plain) := by
  have rows : emittedRows ready.map ready.tables setup.resolver (setup.context outputs) =
      emittedRows ready.map.plain ready.tables setup.resolver (setup.plain.context results) := by
    simp only [emittedRows]
    refine List.map_congr_left fun numbered _ => List.map_congr_left fun row _ => ?_
    have product := rowPlain aligned setup numbered.1 (numbered.2, row) ready.map
    rwa [← RowSite.rowProduct, ← RowSite.rowProduct] at product
  unfold MapOutput.SameQuads Setup.output
  rw [silentRows, silentRows, rows]
  rfl

end

theorem plainStep (setup : Setup) : LockStep MapOutput.SameQuads setup setup.plain := by
  refine ⟨rfl, fun name => ?_⟩
  change Option.Rel _ (setup.prepared.lookup name) ((setup.prepared.mapValues Prepared.plain).lookup name)
  rw [Named.lookupMapped]
  cases setup.prepared.lookup name with
  | none => exact .none
  | some ready => exact .some fun _ _ aligned => outputPlain aligned setup ready

theorem runPlain {spec : Specification} {options : GenerationOptions} {provider : TableProvider} {cancelled : Bool}
    {outcome : Outcome} (ran : run spec options provider cancelled = .ok outcome) :
    ∃ plain, run spec.plain options provider cancelled = .ok plain ∧ plain.quads = outcome.quads ∧
      plain.stats.quotedQuads = outcome.stats.quotedQuads := by
  rw [runByLevels] at ran
  simp only [runBy, boundOk, pureOk] at ran
  obtain ⟨setup, made, description, described, outputs, levels, rfl⟩ := ran
  obtain ⟨results, relevels, aligned⟩ := togetherOk (levelsTogether (plainStep setup) _) levels
  refine ⟨outcomeOf spec.plain description results, ?_, ?_, ?_⟩
  · rw [runByLevels]
    simp only [runBy, boundOk, pureOk]
    exact ⟨_, setupPlain made, description, described, results, relevels, rfl⟩
  all_goals
    have pairs := orderedTogether aligned spec.plan.order
  · have quads := gatheredTogether pairs (fun o => o.quads.toList)
      fun _ _ same => congrArg (fun o => o.quads.toList) same
    exact congrArg (description ++ ·) quads.symm
  · have counts := readTogether pairs MapOutput.quotedQuads
      fun _ _ same => congrArg (fun o => o.quotedQuads) same
    exact congrArg total counts.symm

end TabularRdf.Generation

namespace TabularRdf.Document
open Mapping Generation Loading

theorem expressionsInert {settings : BuildOptions} {document : Json} {spec : Specification}
    (built : build settings document = .ok spec) (options : GenerationOptions) (provider : TableProvider)
    (cancelled : Bool) :
    Plan.build spec.plain.maps = .ok spec.plan ∧
    (∀ outcome, run spec options provider cancelled = .ok outcome →
      ∃ plain, run spec.plain options provider cancelled = .ok plain ∧ plain.quads = outcome.quads ∧
        plain.stats.quotedQuads = outcome.stats.quotedQuads) ∧
    ∀ other : Specification, other.sealed = spec.sealed →
      run other options provider cancelled = run spec options provider cancelled := by
  obtain ⟨_, _, _, reading⟩ := buildReading built
  refine ⟨(plainPlan spec).trans reading.planned, fun outcome => runPlain, fun other same => ?_⟩
  rw [← sealedRun, same, sealedRun]

def initialsDocument : Json := .obj [("mappings", .obj [
  ("person", .obj [
    ("sources", .arr [.str "people.csv~csv"]),
    ("s", .arr [.str "http://example.org/$(id)", .obj [("f", .str "slug(text = $(name))")]]),
    ("condition", .obj [("function", .str "known"), ("pms", .arr [.str "$(name)"])]),
    ("po", .arr [.arr [.str "http://example.org/name", .str "$(name)"],
      .obj [("p", .str "http://example.org/initial"), ("o", .obj [("fn", .str "first(text = $(name))")])]])]),
  ("note", .obj [
    ("sources", .arr [.str "people.csv~csv"]),
    ("s", .obj [("quoted", .str "person")]),
    ("po", .arr [.obj [("p", .str "http://example.org/by"), ("o", .str "$(author)"),
      ("condition", .obj [("function", .str "known")])]])])])]

theorem initialsInert : ∃ spec outcome plain, build .default initialsDocument = .ok spec ∧
    run spec .default (fun _ => some peopleTable) false = .ok outcome ∧
    run spec.plain .default (fun _ => some peopleTable) false = .ok plain ∧
    spec.maps.map (fun m => m.predicateObjects.length) = [2, 1] ∧
    spec.plain.maps.map (fun m => m.predicateObjects.length) = [1, 1] ∧
    outcome.reports.length = 3 ∧ outcome.stats.quotedQuads = 1 ∧ plain.quads = outcome.quads ∧
    plain.stats.quotedQuads = outcome.stats.quotedQuads := by
  have given : ((build .default initialsDocument).toOption.bind fun spec =>
      (run spec .default (fun _ => some peopleTable) false).toOption.map fun outcome =>
        (spec.maps.map fun m => m.predicateObjects.length,
          spec.plain.maps.map fun m => m.predicateObjects.length, outcome.reports.length,
          outcome.stats.quotedQuads)) = some ([2, 1], [1, 1], 3, 1) := by decide +kernel
  obtain ⟨spec, read, rest⟩ := Option.bind_eq_some_iff.mp given
  obtain ⟨outcome, result, counts⟩ := Option.map_eq_some_iff.mp rest
  simp only [Prod.mk.injEq] at counts
  obtain ⟨entries, left, reports, quoted⟩ := counts
  have built := optionOk.mp read
  have ran := optionOk.mp result
  obtain ⟨plain, reran, quads, same⟩ := (expressionsInert built .default _ false).2.1 outcome ran
  exact ⟨spec, outcome, plain, built, ran, reran, entries, left, reports, quoted, quads, same⟩

end TabularRdf.Document
