import TabularRdf.Document.Reference
import TabularRdf.Document.Shortcut
import TabularRdf.Mapping.TriplesMap

/-!
The entries of predicates and objects, in short or long form. An entry is expanded to one pair for each of
its predicates with each of its objects. Under the class predicate an object without a written kind is an
IRI, unless it has a datatype or a language. Several inverse predicates are matched with the predicates by
place.
-/
namespace TabularRdf.Document

open Mapping (Expression Keyword MappingError ObjectSpec ObjectTerm PredicateObject Template TermKind)

structure Predicate where
  template : Template
  isType : Bool
  deriving DecidableEq, Repr

inductive EntryObject where
  | term (template : Template) (kind : Option TermKind) (datatype language : Option Template)
  | other (object : ObjectSpec)
  deriving Repr

structure Entry where
  predicates : List Predicate
  objects : List EntryObject
  inverse : List Template
  graphs : List Template
  condition : Option Expression
  deriving Repr

namespace EntryObject

def makeTerm (owner : String) (template : Template) (kind : Option TermKind)
    (datatype language : Option Template) : Except MappingError EntryObject :=
  if datatype.isSome && language.isSome then
    .error (.validation owner (.datatypeAndLanguage template.source))
  else if kind = some .iri && (datatype.isSome || language.isSome) then
    .error (.validation owner (.iriWithDatatypeOrLanguage template.source))
  else .ok (.term template kind datatype language)

def implicitKind (predicate : Predicate) (datatype language : Option Template) : TermKind :=
  if predicate.isType && datatype.isNone && language.isNone then .iri else .literal

def forPredicate (predicate : Predicate) : EntryObject → ObjectSpec
  | .term template kind datatype language =>
    .term ⟨template, kind.getD (implicitKind predicate datatype language), datatype, language⟩
  | .other object => object

end EntryObject

namespace Entry

def inverseAt (entry : Entry) (i : Nat) : Option Template :=
  match entry.inverse with
  | [] => none
  | [inverse] => some inverse
  | several => several[i]?

def pair (owner : String) (entry : Entry) (predicate : Predicate) (inverse : Option Template)
    (object : EntryObject) : Except MappingError PredicateObject :=
  let object := object.forPredicate predicate
  if inverse.isSome && !object.isResource then .error (.validation owner .inverseOfLiteral)
  else .ok ⟨predicate.template, object, inverse, entry.graphs, entry.condition⟩

def expand (owner : String) (entry : Entry) : Except MappingError (List PredicateObject) := do
  let inverses := entry.inverse.length
  if 1 < inverses && inverses ≠ entry.predicates.length then
    throw (.validation owner (.inverseCount inverses entry.predicates.length))
  let rows ← entry.predicates.zipIdx.mapM fun (predicate, i) =>
    entry.objects.mapM (entry.pair owner predicate (entry.inverseAt i))
  return rows.flatten

end Entry

def parsePredicate (context : Context) (text : String) : Except MappingError Predicate :=
  if text = "a" then .ok ⟨.constant Rdf.Vocabulary.rdfType, true⟩
  else do
    let template ← context.template text
    let iri := template.constant?.bind fun written => (context.resolver.expand written).toOption
    return ⟨template, iri = some Rdf.Vocabulary.rdfType⟩

def modifierParts (context : Context) (marked : Option TermKind) : Option Modifier →
    Except MappingError (Option TermKind × Option Template × Option Template)
  | none => .ok (marked, none, none)
  | some .iri => .ok (some .iri, none, none)
  | some (.datatype written) => do
    let datatype ← context.template written
    return (marked, some datatype, none)
  | some (.language tag) => do
    let language ← context.template tag
    return (marked, none, some language)

def compactTerm (context : Context) (owner : String) (object : CompactObject) :
    Except MappingError EntryObject := do
  let marked := if object.text.iri then some TermKind.iri else none
  let (kind, datatype, language) ← modifierParts context marked object.modifier
  let template ← context.template object.text.value
  EntryObject.makeTerm owner template kind datatype language

def compactEntry (context : Context) (owner : String) (items : List Json) :
    Except MappingError Entry := do
  let entry ← CompactEntry.parse owner items
  let predicates ← entry.predicates.mapM (parsePredicate context)
  let objects ← entry.objects.mapM (compactTerm context owner)
  return { predicates, objects, inverse := [], graphs := [], condition := none }

def declaredKind (owner : String) : Option String → Except MappingError (Option TermKind)
  | none => .ok none
  | some "iri" => .ok (some .iri)
  | some "literal" => .ok (some .literal)
  | some other => .error (.validation owner (.objectType other))

def valueKind (owner written : String) (declared : Option TermKind) (marked : Bool) :
    Except MappingError (Option TermKind) :=
  match declared, marked with
  | some .literal, true => .error (.validation owner (.iriTypedAsLiteral written))
  | some kind, _ => .ok (some kind)
  | none, true => .ok (some .iri)
  | none, false => .ok none

def valueObject (context : Context) (s : Section) : Except MappingError EntryObject := do
  let some written ← s.text? .value | throw (.validation s.owner .valueWithoutTemplate)
  let text ← ObjectText.parse s.owner written
  let type ← s.text? .type
  let declared ← declaredKind s.owner type
  let kind ← valueKind s.owner written declared text.iri
  let datatype ← (← s.text? .datatype).mapM context.template
  let language ← (← s.text? .language).mapM context.template
  let template ← context.template text.value
  EntryObject.makeTerm s.owner template kind datatype language

def referenceObject (context : Context) (s : Section) : Except MappingError EntryObject := do
  let some mapping ← s.text? .mapping | throw (.validation s.owner .mappingWithoutName)
  let (condition, filter) ← conditionUnder context s
  if !filter.isEmpty then throw (.validation s.owner .filterOnReference)
  return .other (.reference ⟨mapping, condition⟩)

def longObject (context : Context) (s : Section) : Except MappingError EntryObject := do
  match ← s.exclusive [.value, .mapping, .quoted, .quotedNonAsserted, .function] with
  | none => throw (.validation s.owner .objectWithoutKind)
  | some keyword =>
    if keyword = .mapping then referenceObject context s
    else if keyword = .function then
      let expression ← functionOf s.owner s.fields
      return .other (.function expression)
    else if keyword = .value then valueObject context s
    else
      match ← quotedRef context s with
      | some quoted => return .other (.quoted quoted)
      | none => throw (.validation s.owner .quotedWithoutName)

def entryObject (context : Context) (owner : String) : Json → Except MappingError EntryObject
  | .obj fields => longObject context ⟨owner, fields⟩
  | value => do
    let object ← CompactObject.parse owner value
    compactTerm context owner object

def entryPredicate (context : Context) (owner : String) (value : Json) :
    Except MappingError Predicate := do
  let text ← scalarOr owner .predicateNotAString value
  parsePredicate context text

def itemsUnder (s : Section) (keyword : Keyword) : Except MappingError (List Json) := do
  match ← s.get? keyword with
  | some value => return itemsOf value
  | none => return []

def longEntry (context : Context) (s : Section) : Except MappingError Entry := do
  let predicates ← (← itemsUnder s .predicates).mapM (entryPredicate context s.owner)
  let objects ← (← itemsUnder s .objects).mapM (entryObject context s.owner)
  if predicates.isEmpty || objects.isEmpty then
    throw (.validation s.owner .entryWithoutParts)
  let inverse ← context.templatesUnder s .inversePredicates
  let graphs ← context.templatesUnder s .graphs
  let condition ← (← s.get? .condition).mapM (conditionOf s.owner)
  return { predicates, objects, inverse, graphs, condition }

def parseEntry (context : Context) (owner : String) : Json → Except MappingError Entry
  | .arr items => compactEntry context owner items
  | .obj fields => longEntry context ⟨owner, fields⟩
  | _ => .error (.validation owner .entryForm)

def parsePredicateObjects (context : Context) (s : Section) :
    Except MappingError (List PredicateObject) := do
  match ← s.get? .predicateObjects with
  | none => return []
  | some (.arr items) =>
    let entries ← items.mapM fun item => do
      let entry ← parseEntry context s.owner item
      entry.expand s.owner
    return entries.flatten
  | some _ => throw (.validation s.owner .entriesNotAList)

end TabularRdf.Document
