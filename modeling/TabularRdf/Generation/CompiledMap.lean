import TabularRdf.Generation.CompiledTerm

/-!
Triples maps with every template compiled, and the joins that they take part in.
-/
namespace TabularRdf.Generation

open Iri (Resolver)
open Mapping

inductive CompiledSubjects where
  | templates (terms : List CompiledTerm)
  | quoted (quoted : QuotedRef)
  deriving Repr

inductive CompiledObject where
  | term (term : CompiledTerm)
  | reference (reference : MappingRef)
  | quoted (quoted : QuotedRef)
  | function
  deriving Repr

structure CompiledEntry where
  predicate : CompiledTerm
  object : CompiledObject
  inverse : Option CompiledTerm
  graphs : List CompiledTerm
  deriving Repr

structure CompiledMap where
  name : String
  subjects : CompiledSubjects
  subjectGraphs : List CompiledTerm
  mapGraphs : List CompiledTerm
  entries : List CompiledEntry
  deferred : List ExpressionKind
  deriving Repr

abbrev IndexKey := String × List String

def indexKey (parent : String) (condition : Option JoinCondition) : IndexKey :=
  (parent, (condition.map JoinCondition.parentColumns).getD [])

def compileIris (templates : List Template) (resolver : Resolver) :
    Except MappingError (List CompiledTerm) :=
  templates.mapM fun template => CompiledTerm.iri template resolver

namespace CompiledObject

def compile (object : ObjectSpec) (resolver : Resolver) : Except MappingError CompiledObject :=
  match object with
  | .term t => do
    let compiled ← CompiledTerm.object t resolver
    return .term compiled
  | .reference r => return .reference r
  | .quoted q => return .quoted q
  | .function _ => return .function

end CompiledObject

def CompiledSubjects.compile (subject : SubjectSpec) (resolver : Resolver) :
    Except MappingError CompiledSubjects :=
  match subject.quoted with
  | some q => return .quoted q
  | none => do
    let terms ← compileIris subject.templates resolver
    return .templates terms

def CompiledEntry.compile (resolver : Resolver) (po : PredicateObject) :
    Except MappingError CompiledEntry := do
  let object ← CompiledObject.compile po.object resolver
  let predicate ← CompiledTerm.iri po.predicate resolver
  let inverse ← po.inverse.mapM fun template => CompiledTerm.iri template resolver
  let graphs ← compileIris po.graphs resolver
  return { predicate, object, inverse, graphs }

namespace CompiledMap

def expressionKinds (map : TriplesMap) : List ExpressionKind :=
  (map.condition.toList ++ map.subject.functions).map Expression.kind ++
    map.predicateObjects.flatMap fun po =>
      (match po.object with
        | .function e => [e.kind]
        | _ => []) ++ po.condition.toList.map Expression.kind

def compile (map : TriplesMap) (resolver : Resolver) : Except MappingError CompiledMap := do
  let subjects ← CompiledSubjects.compile map.subject resolver
  let entries ← map.predicateObjects.mapM (CompiledEntry.compile resolver)
  let subjectGraphs ← compileIris map.subject.graphs resolver
  let mapGraphs ← compileIris map.graphs resolver
  let kinds := expressionKinds map
  return {
    name := map.name
    subjects, subjectGraphs, mapGraphs, entries
    deferred := [ExpressionKind.function, .condition].filter kinds.contains }

def subjectTerms (map : CompiledMap) : List CompiledTerm :=
  match map.subjects with
  | .templates terms => terms
  | .quoted _ => []

def quoteKeys (map : CompiledMap) : List IndexKey :=
  (match map.subjects with
    | .quoted q => [indexKey q.mapping q.condition]
    | .templates _ => []) ++
  map.entries.filterMap fun entry =>
    match entry.object with
    | .quoted q => some (indexKey q.mapping q.condition)
    | _ => none

def subjectKeys (map : CompiledMap) : List IndexKey :=
  map.entries.filterMap fun entry =>
    match entry.object with
    | .reference r => some (indexKey r.mapping r.condition)
    | _ => none

end CompiledMap

end TabularRdf.Generation
