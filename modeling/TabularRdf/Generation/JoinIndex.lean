import Std.Data.HashMap
import TabularRdf.Generation.CompiledTerm

/-!
Indexes for joins. A child row meets the parent rows whose key columns hold the same texts; the index gives
them in the order of tables and rows. A row with a null in a key column, and a table that lacks one, take no
part in any join.
-/
namespace TabularRdf.Generation

open Iri (Resolver)
open Rdf (Term TermFailure)
open Table (Column)

abbrev Position := Nat × Nat

def bindKey (table : Table) (names : List String) : Except TermFailure (List Column) :=
  names.mapM fun name =>
    match table.column? name with
    | some column => .ok column
    | none => .error (.missingColumn name)

def keyAt (columns : List Column) (row : Nat) : Option (List String) :=
  columns.mapM fun column => column.text? row

structure QuoteIndex where
  positions : Std.HashMap (List String) (Array Position)

namespace QuoteIndex

def keyedRows (columns : List String) (table : Nat × Table) : List (List String × Position) :=
  match bindKey table.2 columns with
  | .error _ => []
  | .ok bound =>
    (List.range table.2.rows).filterMap fun row =>
      (keyAt bound row).map fun key => (key, (table.1, row))

def enter (positions : Std.HashMap (List String) (Array Position))
    (entry : List String × Position) : Std.HashMap (List String) (Array Position) :=
  positions.alter entry.1 fun found => some ((found.getD #[]).push entry.2)

def build (tables : List Table) (columns : List String) : QuoteIndex :=
  let numbered := tables.zipIdx.map fun (table, t) => (t, table)
  ⟨(numbered.flatMap (keyedRows columns)).foldl enter ∅⟩

def lookup (index : QuoteIndex) (key : List String) : List Position :=
  ((index.positions[key]?).getD #[]).toList

def size (index : QuoteIndex) : Nat := index.positions.size

end QuoteIndex

structure SubjectIndex where
  subjects : List (Array (List Term))
  keys : Option QuoteIndex

namespace SubjectIndex

def rowSubjects (terms : List CompiledTerm) (resolver : Resolver) (table : Table) :
    Array (List Term) :=
  let bound := terms.map fun term => (term, term.bind table)
  (Array.range table.rows).map fun row =>
    bound.filterMap fun (term, columns) => (term.atRow resolver columns row).toOption

def build (tables : List Table) (terms : List CompiledTerm) (resolver : Resolver)
    (columns : Option (List String)) : SubjectIndex where
  subjects := tables.map (rowSubjects terms resolver)
  keys := columns.map (QuoteIndex.build tables)

def subjectsAt (index : SubjectIndex) (position : Position) : List Term :=
  ((index.subjects[position.1]?).bind fun rows => rows[position.2]?).getD []

def byKey (index : SubjectIndex) (key : List String) : List Term :=
  match index.keys with
  | some keys => (keys.lookup key).flatMap index.subjectsAt
  | none => []

end SubjectIndex

end TabularRdf.Generation
