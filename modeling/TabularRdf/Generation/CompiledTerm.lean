import TabularRdf.Iri.Resolver
import TabularRdf.Mapping.TriplesMap
import TabularRdf.Table.Basic

/-!
Templates compiled against a resolver. The fixed parts are expanded once and the placeholders become
numbered slots, one for each column, so that a row only looks up its values and puts them in place.
A column value is encoded where it stands in an IRI; a template that is one placeholder gives an IRI
reference of its own.
-/
namespace TabularRdf.Generation

open Iri (Resolver)
open Mapping (MappingError ObjectTerm Segment Template)
open Rdf (Literal Term TermFailure)
open Table (Column)

inductive Cell where
  | value (text : String)
  | null
  | missing
  deriving DecidableEq, Repr

abbrev Row := String → Cell

def cellAt (row : Nat) : Option Column → Cell
  | none => .missing
  | some column =>
    match column.text? row with
    | some text => .value text
    | none => .null

namespace Row

def ofTable (table : Table) (row : Nat) : Row := fun name => cellAt row (table.column? name)

def ofRecord (record : Named (Option String)) : Row := fun name =>
  match record.lookup name with
  | some (some text) => .value text
  | some none => .null
  | none => .missing

end Row

inductive Piece where
  | text (text : String)
  | slot (slot : Nat)
  deriving DecidableEq, Repr

abbrev Pattern := List Piece

namespace Pattern

def slotOf (name : String) (columns : List String) : Nat × List String :=
  match columns.idxOf? name with
  | some slot => (slot, columns)
  | none => (columns.length, columns ++ [name])

def compile : List Segment → List String → Pattern × List String
  | [], columns => ([], columns)
  | .text t :: rest, columns =>
    let (pieces, columns) := compile rest columns
    (.text t :: pieces, columns)
  | .column name :: rest, columns =>
    let (slot, columns) := slotOf name columns
    let (pieces, columns) := compile rest columns
    (.slot slot :: pieces, columns)

def slotText (columns : List String) (cells : List Cell) (slot : Nat) : Except TermFailure String :=
  match cells[slot]? with
  | some (.value text) => .ok text
  | some .null => .error (.nullValue (columns[slot]?.getD ""))
  | some .missing | none => .error (.missingColumn (columns[slot]?.getD ""))

def render (columns : List String) (cells : List Cell) (encode : String → String) :
    Pattern → Except TermFailure String
  | [] => .ok ""
  | .text t :: rest => do
    let rest ← render columns cells encode rest
    return t ++ rest
  | .slot slot :: rest => do
    let text ← slotText columns cells slot
    let rest ← render columns cells encode rest
    return encode text ++ rest

end Pattern

inductive Qualifier where
  | fixed (text : String)
  | perRow (pattern : Pattern)
  deriving DecidableEq, Repr

inductive Shape where
  | constant (term : Term)
  | wholeValue (slot : Nat)
  | headed (head : String) (rest : Pattern)
  | filled (pattern : Pattern)
  | literal (value : Pattern) (datatype language : Option Qualifier)
  deriving DecidableEq, Repr

structure CompiledTerm where
  shape : Shape
  columns : List String
  deriving DecidableEq, Repr

def makeLiteral (value : String) (datatype language : Option String) :
    Except TermFailure Literal :=
  if language = some "" then .error (.invalid .emptyLanguage)
  else (Literal.make value datatype language).mapError fun e => .invalid (.malformed e)

def inTemplate {α : Type} (template : Template) (result : Except TermFailure α) : Except MappingError α :=
  result.mapError fun failure => .invalidTemplate template.source (.failure failure)

namespace Qualifier

def ofDatatype (resolver : Resolver) (columns : List String) (template : Template) :
    Except MappingError (Qualifier × List String) :=
  match template.constant? with
  | some text => do
    let iri ← inTemplate template (resolver.expand text)
    return (.fixed iri, columns)
  | none =>
    let (pattern, columns) := Pattern.compile template.segments columns
    return (.perRow pattern, columns)

def ofLanguage (columns : List String) (template : Template) : Qualifier × List String :=
  match template.constant? with
  | some text => (.fixed text, columns)
  | none =>
    let (pattern, columns) := Pattern.compile template.segments columns
    (.perRow pattern, columns)

def datatype? (resolver : Resolver) :
    Option Template → Except MappingError (Option Qualifier × List String)
  | none => .ok (none, [])
  | some template => do
    let (qualifier, columns) ← ofDatatype resolver [] template
    return (some qualifier, columns)

def language? (columns : List String) : Option Template → Option Qualifier × List String
  | none => (none, columns)
  | some template =>
    let (qualifier, columns) := ofLanguage columns template
    (some qualifier, columns)

def atRow (columns : List String) (cells : List Cell) (finish : String → Except TermFailure String) :
    Option Qualifier → Except TermFailure (Option String)
  | none => .ok none
  | some (.fixed text) => .ok (some text)
  | some (.perRow pattern) => do
    let text ← Pattern.render columns cells id pattern
    let text ← finish text
    return some text

def fixed? : Option Qualifier → Option (Option String)
  | none => some none
  | some (.fixed text) => some (some text)
  | some (.perRow _) => none

end Qualifier

namespace CompiledTerm

def iri (template : Template) (resolver : Resolver) : Except MappingError CompiledTerm :=
  match template.constant? with
  | some text => do
    let iri ← inTemplate template (resolver.expand text)
    return ⟨.constant (.iri iri), []⟩
  | none =>
    match template.segments with
    | [.column name] => return ⟨.wholeValue 0, [name]⟩
    | .text head :: rest =>
      let (pattern, columns) := Pattern.compile rest []
      return ⟨.headed (resolver.expandHead head) pattern, columns⟩
    | segments =>
      let (pattern, columns) := Pattern.compile segments []
      return ⟨.filled pattern, columns⟩

/- Compiles a template of literals. The datatype is expanded and the language stands as written; slots
are numbered in the datatype first, then in the language and the value. -/
def literal (template : Template) (datatype language : Option Template) (resolver : Resolver) :
    Except MappingError CompiledTerm := do
  let (datatype, columns) ← Qualifier.datatype? resolver datatype
  let (language, columns) := Qualifier.language? columns language
  match template.constant?, Qualifier.fixed? datatype, Qualifier.fixed? language with
  | some value, some datatype, some language => do
    let literal ← inTemplate template (makeLiteral value datatype language)
    return ⟨.constant (.literal literal), columns⟩
  | _, _, _ =>
    let (value, columns) := Pattern.compile template.segments columns
    return ⟨.literal value datatype language, columns⟩

def object (term : ObjectTerm) (resolver : Resolver) : Except MappingError CompiledTerm :=
  match term.kind with
  | .iri => iri term.template resolver
  | .literal => literal term.template term.datatype term.language resolver

def isConstant (t : CompiledTerm) : Bool :=
  match t.shape with
  | .constant _ => true
  | _ => false

def build (t : CompiledTerm) (resolver : Resolver) (cells : List Cell) : Except TermFailure Term :=
  let encode := resolver.encoding.encode
  match t.shape with
  | .constant term => .ok term
  | .wholeValue slot => do
    let value ← Pattern.slotText t.columns cells slot
    let iri ← resolver.resolveReference value
    return .iri iri
  | .headed head rest => do
    let tail ← Pattern.render t.columns cells encode rest
    return .iri (head ++ tail)
  | .filled pattern => do
    let text ← Pattern.render t.columns cells encode pattern
    let iri ← resolver.expand text
    return .iri iri
  | .literal value datatype language => do
    let lexical ← Pattern.render t.columns cells id value
    let datatype ← Qualifier.atRow t.columns cells resolver.expand datatype
    let language ← Qualifier.atRow t.columns cells .ok language
    let literal ← makeLiteral lexical datatype language
    return .literal literal

def resolve (t : CompiledTerm) (resolver : Resolver) (row : Row) : Except TermFailure Term :=
  t.build resolver (t.columns.map row)

def bind (t : CompiledTerm) (table : Table) : List (Option Column) := t.columns.map table.column?

def atRow (t : CompiledTerm) (resolver : Resolver) (bound : List (Option Column)) (row : Nat) :
    Except TermFailure Term :=
  t.build resolver (bound.map (cellAt row))

def materializeColumn (t : CompiledTerm) (resolver : Resolver) (table : Table) :
    List (Except TermFailure Term) :=
  let bound := t.bind table
  (List.range table.rows).map (t.atRow resolver bound)

theorem atRowBind (t : CompiledTerm) (resolver : Resolver) (table : Table) (row : Nat) :
    t.atRow resolver (t.bind table) row = t.resolve resolver (Row.ofTable table row) := by
  simp only [atRow, bind, resolve, List.map_map]
  rfl

end CompiledTerm

end TabularRdf.Generation
