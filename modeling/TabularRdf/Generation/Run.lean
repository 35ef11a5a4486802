import TabularRdf.Generation.Dataset
import TabularRdf.Generation.Generate
import TabularRdf.Generation.TableSet
import TabularRdf.Mapping.Specification

/-!
Running a specification over tables. Every table is fetched and every template compiled before the first
quad; then the maps run level by level, so that a map sees the whole output of the maps it quotes. Whatever
can stop a run stops it before the rows are read: a row only ever leads to a report.
-/
namespace TabularRdf.Generation

open Iri (Resolver)
open Mapping (Author MappingError Specification TriplesMap)
open Rdf (Quad)

structure Stats where
  rowsProcessed : Nat
  quadsGenerated : Nat
  quotedQuads : Nat
  mapsProcessed : Nat
  diagnostics : Nat
  deriving DecidableEq, Repr

structure Prepared where
  map : CompiledMap
  tables : List Table

def tablesOf (provider : TableProvider) (map : TriplesMap) : Except MappingError (List Table) :=
  map.sources.mapM fun source =>
    match provider source with
    | some table => .ok table
    | none => .error (.missingTable map.name source.key)

def prepare (provider : TableProvider) (resolver : Resolver) (map : TriplesMap) :
    Except MappingError Prepared := do
  let tables ← tablesOf provider map
  let compiled ← CompiledMap.compile map resolver
  return ⟨compiled, tables⟩

def prepareAll (provider : TableProvider) (resolver : Resolver) (maps : List TriplesMap) :
    Except MappingError (Named Prepared) := do
  let prepared ← maps.mapM fun map => do
    let ready ← prepare provider resolver map
    return (map.name, ready)
  return Named.setAll [] prepared

def addIndex {α : Type} (build : IndexKey → α) (indexes : List (IndexKey × α)) (key : IndexKey) :
    List (IndexKey × α) :=
  if (indexes.lookup key).isSome then indexes else indexes ++ [(key, build key)]

def quoteIndexFor (all : Named Prepared) (key : IndexKey) : QuoteIndex :=
  .build ((all.lookup key.1).map Prepared.tables |>.getD []) key.2

def subjectIndexFor (all : Named Prepared) (resolver : Resolver) (key : IndexKey) : SubjectIndex :=
  let parent := all.lookup key.1
  .build (parent.map Prepared.tables |>.getD [])
    (parent.map (fun p => p.map.subjectTerms) |>.getD []) resolver
    (if key.2.isEmpty then none else some key.2)

/- The indexes of the joins of some maps, each built once. A join on quads by position needs none. -/
def buildIndexes (maps : List CompiledMap) (all : Named Prepared) (resolver : Resolver) :
    List (IndexKey × QuoteIndex) × List (IndexKey × SubjectIndex) :=
  let quoteKeys := (maps.flatMap CompiledMap.quoteKeys).filter fun key => !key.2.isEmpty
  let subjectKeys := maps.flatMap CompiledMap.subjectKeys
  (quoteKeys.foldl (addIndex (quoteIndexFor all)) [],
    subjectKeys.foldl (addIndex (subjectIndexFor all resolver)) [])

structure Setup where
  resolver : Resolver
  prepared : Named Prepared
  quoteIndexes : List (IndexKey × QuoteIndex)
  subjectIndexes : List (IndexKey × SubjectIndex)
  cancelled : Bool

namespace Setup

def context (setup : Setup) (outputs : Named MapOutput) : JoinContext :=
  ⟨outputs, setup.quoteIndexes, setup.subjectIndexes⟩

def runMap (setup : Setup) (outputs : Named MapOutput) (name : String) :
    Except MappingError (String × MapOutput) :=
  if setup.cancelled then .error .cancelled
  else match setup.prepared.lookup name with
    | none => .error (.document (.unplannedMap name))
    | some ready =>
      .ok (name, generateMap ready.map ready.tables setup.resolver (setup.context outputs))

def runLevel (setup : Setup) (outputs : Named MapOutput) (level : List String) :
    Except MappingError (Named MapOutput) := do
  let results ← level.mapM (setup.runMap outputs)
  return outputs.setAll results

def runLevels (setup : Setup) (levels : List (List String)) :
    Except MappingError (Named MapOutput) :=
  levels.foldlM setup.runLevel []

end Setup

structure Outcome where
  quads : List Quad
  stats : Stats
  reports : List RowDiagnostic
  deriving DecidableEq, Repr

def resolverOf (spec : Specification) (options : GenerationOptions) : Resolver :=
  ⟨spec.prefixes, spec.base, options.encoding⟩

def Setup.make (spec : Specification) (options : GenerationOptions) (provider : TableProvider)
    (cancelled : Bool) : Except MappingError Setup := do
  let resolver := resolverOf spec options
  let prepared ← prepareAll provider resolver spec.maps
  let (quoteIndexes, subjectIndexes) :=
    buildIndexes (prepared.map fun (_, ready) => ready.map) prepared resolver
  return { resolver, prepared, quoteIndexes, subjectIndexes, cancelled }

def descriptionOf (options : GenerationOptions) (authors : List Author) (resolver : Resolver) :
    Except MappingError (List Quad) :=
  match options.dataset with
  | some metadata => datasetQuads metadata authors resolver
  | none => .ok []

def run (spec : Specification) (options : GenerationOptions) (provider : TableProvider)
    (cancelled : Bool) : Except MappingError Outcome := do
  let setup ← Setup.make spec options provider cancelled
  let description ← descriptionOf options spec.authors setup.resolver
  let outputs ← setup.runLevels spec.plan.levels
  let ordered := spec.plan.order.filterMap fun name => outputs.lookup name
  let quads := description ++ ordered.flatMap fun output => output.quads.toList
  let reports := ordered.flatMap MapOutput.diagnostics
  return {
    quads, reports
    stats := {
      rowsProcessed := total (ordered.map MapOutput.rows)
      quadsGenerated := quads.length
      quotedQuads := total (ordered.map MapOutput.quotedQuads)
      mapsProcessed := spec.plan.order.length
      diagnostics := reports.length } }

def Outcome.diagnostics (outcome : Outcome) (options : GenerationOptions) : Diagnostics :=
  (Diagnostics.empty options.maxRecorded).reportAll outcome.reports

end TabularRdf.Generation
