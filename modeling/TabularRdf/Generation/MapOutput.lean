import TabularRdf.Generation.Diagnostic
import TabularRdf.Generation.JoinIndex
import TabularRdf.Mapping.Join

/-!
What one map has produced: its quads, with the stretch of them that each row emitted, so that another map
can quote the quads of a row.
-/
namespace TabularRdf.Generation

open Mapping (QuoteFilter)
open Rdf (Quad Term)

structure Span where
  start : Nat
  stop : Nat
  deriving DecidableEq, Repr

def spansFrom (start : Nat) : List Nat → List Span × Nat
  | [] => ([], start)
  | size :: rest =>
    let (spans, stop) := spansFrom (start + size) rest
    (⟨start, start + size⟩ :: spans, stop)

def tableSpansFrom (start : Nat) : List (List Nat) → List (Array Span)
  | [] => []
  | sizes :: rest =>
    let (spans, stop) := spansFrom start sizes
    spans.toArray :: tableSpansFrom stop rest

def total (counts : List Nat) : Nat := counts.foldr (· + ·) 0

structure MapOutput where
  quads : Array Quad
  spans : List (Array Span)
  rows : Nat
  quotedQuads : Nat
  diagnostics : List RowDiagnostic
  deriving Repr

namespace MapOutput

def span? (output : MapOutput) (position : Position) : Option Span :=
  (output.spans[position.1]?).bind fun rows => rows[position.2]?

def rowQuads (output : MapOutput) (position : Position) : List Quad :=
  match output.span? position with
  | some span => (output.quads.extract span.start span.stop).toList
  | none => []

/- The quads of some rows as quoted triples: those that hold no quoted triple and pass the filter, one
triple for each quad. -/
def quoteRows (output : MapOutput) (positions : List Position) (filter : QuoteFilter) : List Term :=
  positions.flatMap fun position =>
    (output.rowQuads position).filterMap fun quad =>
      if quad.hasQuoted || !filter.accepts quad then none else quad.quote.toOption

end MapOutput

end TabularRdf.Generation
