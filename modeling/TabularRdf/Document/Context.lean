import TabularRdf.Document.Section
import TabularRdf.Iri.Resolver
import TabularRdf.Mapping.Source
import TabularRdf.Mapping.Template

/-!
What a mapping is read against: the declared sources and targets, the external values and the prefixes.
A call on one line stands for its name and arguments unless the entry has parameters of its own.
-/
namespace TabularRdf.Document

open Mapping (Expression Keyword MappingError Source Target Template)

structure Context where
  sources : Named Source
  targets : Named Target
  external : Named String
  resolver : Iri.Resolver

namespace Context

def template (context : Context) (text : String) : Except MappingError Template :=
  (Template.parse text).map fun t => t.withExternals context.external

def templates (context : Context) (owner : String) (value : Json) :
    Except MappingError (List Template) :=
  (itemsOf value).mapM fun item => do
    let text ← scalarOr owner .templateNotAString item
    context.template text

def templatesUnder (context : Context) (s : Section) (keyword : Keyword) :
    Except MappingError (List Template) := do
  match ← s.get? keyword with
  | some value => context.templates s.owner value
  | none => return []

def expand (context : Context) (owner : String) (text : String) : Except MappingError String :=
  if text = "a" then .ok Rdf.Vocabulary.rdfType
  else (context.resolver.expand text).mapError fun reason => .validation owner (.failure reason)

end Context

def conditionOf (owner : String) (value : Json) : Except MappingError Expression :=
  match Mapping.canonicalizeKeys value with
  | .ok payload => .ok ⟨.condition, payload⟩
  | .error key => .error (.validation owner (.duplicateKey key))

def firstUnder? (fields : Json.Fields) (keyword : Keyword) : Option Json :=
  keyword.spellings.findSome? fun key => fields.lookup key

def functionOf (owner : String) (fields : Json.Fields) : Except MappingError Expression :=
  let call := ((firstUnder? fields .function).bind Json.str?).bind Mapping.InlineCall.parse
  let hasParameters := (firstUnder? fields .parameters).isSome
  match call, hasParameters with
  | some call, false => .ok (Expression.ofCall .function call)
  | _, _ =>
    match Mapping.canonicalizeKeys (.obj fields) with
    | .ok payload => .ok ⟨.function, payload⟩
    | .error key => .error (.validation owner (.duplicateKey key))

end TabularRdf.Document
