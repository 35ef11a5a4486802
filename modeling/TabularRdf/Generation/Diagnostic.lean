import TabularRdf.Json.Basic
import TabularRdf.Mapping.Expression
import TabularRdf.Rdf.Failure

/-!
What a run reports without stopping: terms that a row does not give, joins without a partner, and functions
that are carried but not evaluated. A sink counts every report and keeps the first ones.
-/
namespace TabularRdf.Generation

open Mapping (ExpressionKind)
open Rdf (TermFailure)

inductive DiagnosticKind where
  | missingColumn (column : String)
  | nullValue (column : String)
  | invalidTerm (message : String)
  | joinNoMatch (reference : String)
  | deferredFunction (expression : ExpressionKind)
  deriving DecidableEq, Repr

namespace DiagnosticKind

def ofFailure : TermFailure → DiagnosticKind
  | .missingColumn column => .missingColumn column
  | .nullValue column => .nullValue column
  | .invalid reason => .invalidTerm reason.message

def label : DiagnosticKind → String
  | .missingColumn _ => "missing_column"
  | .nullValue _ => "null_value"
  | .invalidTerm _ => "invalid_term"
  | .joinNoMatch _ => "join_no_match"
  | .deferredFunction _ => "deferred_function"

def text : DiagnosticKind → String
  | .missingColumn column => "column '" ++ column ++ "' missing"
  | .nullValue column => "column '" ++ column ++ "' is null"
  | .invalidTerm message => "invalid term: " ++ message
  | .joinNoMatch reference => "no matching row in '" ++ reference ++ "'"
  | .deferredFunction .function => "Function not evaluated"
  | .deferredFunction .condition => "Condition not evaluated"

end DiagnosticKind

structure RowDiagnostic where
  mapping : String
  row : Option Nat
  kind : DiagnosticKind
  deriving DecidableEq, Repr

def RowDiagnostic.text (d : RowDiagnostic) : String :=
  (match d.row with
    | some row => d.mapping ++ " row " ++ toString row ++ ": "
    | none => d.mapping ++ ": ") ++ d.kind.text

structure Diagnostics where
  limit : Nat
  recorded : List RowDiagnostic
  counts : Named Nat
  total : Nat
  deriving DecidableEq, Repr

namespace Diagnostics

def empty (limit : Nat) : Diagnostics := ⟨limit, [], [], 0⟩

def count (d : Diagnostics) (label : String) : Nat := (d.counts.lookup label).getD 0

def report (d : Diagnostics) (entry : RowDiagnostic) : Diagnostics :=
  let label := entry.kind.label
  { d with
    total := d.total + 1
    counts := d.counts.set label (d.count label + 1)
    recorded := if d.recorded.length < d.limit then d.recorded ++ [entry] else d.recorded }

def reportAll (d : Diagnostics) (entries : List RowDiagnostic) : Diagnostics :=
  entries.foldl report d

def isEmpty (d : Diagnostics) : Bool := d.total == 0

def truncated (d : Diagnostics) : Bool := d.recorded.length < d.total

end Diagnostics

end TabularRdf.Generation
