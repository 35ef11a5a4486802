import TabularRdf.Generation.JoinContext

/-!
The quads of one map. A row gives subjects, and entries of a predicate, objects, perhaps an inverse
predicate, and graphs; its quads are those of every subject with every entry. What a row does not give is
reported and left out: a predicate or an object that fails drops its entry, an inverse predicate only the
inverse quads, and a graph only its copies. The graphs of an entry take the place of those of the
subjects, and these of those of the mapping.
-/
namespace TabularRdf.Generation

open Iri (Resolver)
open Mapping (JoinCondition MappingRef QuotedRef)
open Rdf (Quad Term TermFailure)
open Table (Column)

structure BoundTerm where
  term : CompiledTerm
  columns : List (Option Column)

namespace BoundTerm

def ofTable (table : Table) (term : CompiledTerm) : BoundTerm := ⟨term, term.bind table⟩

def atRow (t : BoundTerm) (resolver : Resolver) (row : Nat) : Except TermFailure Term :=
  t.term.atRow resolver t.columns row

end BoundTerm

inductive BoundSubjects where
  | templates (terms : List BoundTerm)
  | quoted (quoted : QuotedRef) (probe : Probe)

inductive BoundObject where
  | term (term : BoundTerm)
  | reference (reference : MappingRef) (probe : Probe)
  | quoted (quoted : QuotedRef) (probe : Probe)
  | function

structure BoundEntry where
  predicate : BoundTerm
  object : BoundObject
  inverse : Option BoundTerm
  graphs : List BoundTerm

structure BoundMap where
  subjects : BoundSubjects
  subjectGraphs : List BoundTerm
  mapGraphs : List BoundTerm
  entries : List BoundEntry

abbrev Reported (α : Type) := α × List DiagnosticKind

def bindProbe (table : Table) (condition : Option JoinCondition) : Reported Probe :=
  match Probe.bind table condition with
  | .ok probe => (probe, [])
  | .error failure => (.unbound, [.ofFailure failure])

def CompiledSubjects.bind (table : Table) : CompiledSubjects → Reported BoundSubjects
  | .templates terms => (.templates (terms.map (BoundTerm.ofTable table)), [])
  | .quoted q =>
    let (probe, reports) := bindProbe table q.condition
    (.quoted q probe, reports)

def CompiledObject.bind (table : Table) : CompiledObject → Reported BoundObject
  | .term t => (.term (.ofTable table t), [])
  | .reference r =>
    let (probe, reports) := bindProbe table r.condition
    (.reference r probe, reports)
  | .quoted q =>
    let (probe, reports) := bindProbe table q.condition
    (.quoted q probe, reports)
  | .function => (.function, [])

def CompiledEntry.bind (table : Table) (entry : CompiledEntry) : Reported BoundEntry :=
  let (object, reports) := entry.object.bind table
  ({ predicate := .ofTable table entry.predicate
     object
     inverse := entry.inverse.map (BoundTerm.ofTable table)
     graphs := entry.graphs.map (BoundTerm.ofTable table) }, reports)

def CompiledMap.bind (table : Table) (map : CompiledMap) : Reported BoundMap :=
  let (subjects, reports) := map.subjects.bind table
  let entries := map.entries.map (CompiledEntry.bind table)
  ({ subjects
     subjectGraphs := map.subjectGraphs.map (BoundTerm.ofTable table)
     mapGraphs := map.mapGraphs.map (BoundTerm.ofTable table)
     entries := entries.map Prod.fst }, reports ++ entries.flatMap Prod.snd)

def failureOf : Except TermFailure Term → Option DiagnosticKind
  | .ok _ => none
  | .error failure => some (.ofFailure failure)

def termsAt (resolver : Resolver) (row : Nat) (terms : List BoundTerm) : Reported (List Term) :=
  let results := terms.map fun t => t.atRow resolver row
  (results.filterMap Except.toOption, results.filterMap failureOf)

/- The graphs that a row gives for a level of graph templates. A level without templates is the default
graph; one whose templates all fail is no graph at all. -/
def graphsAt (resolver : Resolver) (row : Nat) (terms : List BoundTerm) :
    Reported (List (Option String)) :=
  if terms.isEmpty then ([none], [])
  else
    let (graphs, reports) := termsAt resolver row terms
    (graphs.filterMap fun t => t.iri?.map some, reports)

def joined (reference : String) (terms : List Term) : Reported (List Term) :=
  (terms, if terms.isEmpty then [.joinNoMatch reference] else [])

def subjectsAt (resolver : Resolver) (context : JoinContext) (position : Position) :
    BoundSubjects → Reported (List Term)
  | .templates terms => termsAt resolver position.2 terms
  | .quoted q probe => joined q.mapping (context.quotedTerms q probe position)

def objectsAt (resolver : Resolver) (context : JoinContext) (position : Position) :
    BoundObject → Reported (List Term)
  | .term t => termsAt resolver position.2 [t]
  | .reference r probe => joined r.mapping (context.referencedSubjects r probe position)
  | .quoted q probe => joined q.mapping (context.quotedTerms q probe position)
  | .function => ([], [])

structure RowEntry where
  predicate : Term
  objects : List Term
  inverse : Option Term
  graphs : List (Option String)
  deriving DecidableEq, Repr

def RowEntry.quads (entry : RowEntry) (subject : Term) : List Quad :=
  entry.objects.flatMap fun object =>
    entry.graphs.flatMap fun graph =>
      ⟨subject, entry.predicate, object, graph⟩ ::
        entry.inverse.toList.map fun inverse => ⟨object, inverse, subject, graph⟩

def entryAt (resolver : Resolver) (context : JoinContext) (position : Position)
    (inherited : List (Option String)) (entry : BoundEntry) : Reported (Option RowEntry) :=
  match entry.predicate.atRow resolver position.2 with
  | .error failure => (none, [.ofFailure failure])
  | .ok predicate =>
    let (objects, reports) := objectsAt resolver context position entry.object
    if objects.isEmpty then (none, reports)
    else
      let (inverses, inverseReports) := termsAt resolver position.2 entry.inverse.toList
      let (graphs, graphReports) :=
        if entry.graphs.isEmpty then (inherited, []) else graphsAt resolver position.2 entry.graphs
      (some ⟨predicate, objects, inverses.head?, graphs⟩, inverseReports ++ graphReports)

def rowAt (resolver : Resolver) (context : JoinContext) (map : BoundMap) (position : Position) :
    Reported (List Quad) :=
  let (subjects, subjectReports) := subjectsAt resolver context position map.subjects
  if subjects.isEmpty then ([], subjectReports)
  else
    let level := if map.subjectGraphs.isEmpty then map.mapGraphs else map.subjectGraphs
    let (inherited, graphReports) := graphsAt resolver position.2 level
    let entries := map.entries.map (entryAt resolver context position inherited)
    let kept := entries.filterMap Prod.fst
    (subjects.flatMap fun subject => kept.flatMap fun entry => entry.quads subject,
      subjectReports ++ graphReports ++ entries.flatMap Prod.snd)

structure TableOutput where
  rows : List (List Quad)
  diagnostics : List RowDiagnostic
  deriving DecidableEq, Repr

def generateTable (map : CompiledMap) (resolver : Resolver) (context : JoinContext)
    (table : Table) (t : Nat) : TableOutput :=
  let (bound, bindReports) := map.bind table
  let rows := (List.range table.rows).map fun row =>
    (row, rowAt resolver context bound (t, row))
  { rows := rows.map fun (_, quads, _) => quads
    diagnostics := bindReports.map (⟨map.name, none, ·⟩) ++
      rows.flatMap fun (row, _, reports) => reports.map (⟨map.name, some row, ·⟩) }

def generateMap (map : CompiledMap) (tables : List Table) (resolver : Resolver)
    (context : JoinContext) : MapOutput :=
  let outputs := tables.zipIdx.map fun (table, t) => generateTable map resolver context table t
  let quads := outputs.flatMap fun output => output.rows.flatten
  { quads := quads.toArray
    spans := tableSpansFrom 0 (outputs.map fun output => output.rows.map List.length)
    rows := total (tables.map Table.rows)
    quotedQuads := quads.countP Quad.hasQuoted
    diagnostics := map.deferred.map (⟨map.name, none, .deferredFunction ·⟩) ++
      outputs.flatMap TableOutput.diagnostics }

end TabularRdf.Generation
