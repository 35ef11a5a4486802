import TabularRdf.Generation.CompiledMap
import TabularRdf.Generation.MapOutput

/-!
What the rows of one map can see of other maps: the outputs of the maps that ran before, and the indexes of
the joins. Where a join column is lacking no row has a partner.
-/
namespace TabularRdf.Generation

open Mapping (JoinCondition MappingRef QuotedRef)
open Rdf (Term TermFailure)
open Table (Column)

structure JoinContext where
  outputs : Named MapOutput
  quoteIndexes : List (IndexKey × QuoteIndex)
  subjectIndexes : List (IndexKey × SubjectIndex)

inductive Probe where
  | positional
  | keyed (columns : List Column)
  | unbound
  deriving DecidableEq, Repr

def Probe.bind (table : Table) (condition : Option JoinCondition) : Except TermFailure Probe :=
  match condition with
  | none => .ok .positional
  | some condition => (bindKey table condition.childColumns).map .keyed

namespace JoinContext

def quotedTerms (context : JoinContext) (quoted : QuotedRef) (probe : Probe)
    (position : Position) : List Term :=
  match context.outputs.lookup quoted.mapping with
  | none => []
  | some output =>
    match probe with
    | .positional => output.quoteRows [position] quoted.filter
    | .keyed columns =>
      match keyAt columns position.2,
          context.quoteIndexes.lookup (indexKey quoted.mapping quoted.condition) with
      | some key, some index => output.quoteRows (index.lookup key) quoted.filter
      | _, _ => []
    | .unbound => []

def referencedSubjects (context : JoinContext) (reference : MappingRef) (probe : Probe)
    (position : Position) : List Term :=
  match context.subjectIndexes.lookup (indexKey reference.mapping reference.condition) with
  | none => []
  | some index =>
    match probe with
    | .positional => index.subjectsAt position
    | .keyed columns =>
      match keyAt columns position.2 with
      | some key => index.byKey key
      | none => []
    | .unbound => []

end JoinContext

end TabularRdf.Generation
