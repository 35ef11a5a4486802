/-!
The keywords of mapping documents. Each has one canonical spelling and may have shortcuts.
-/
namespace TabularRdf.Mapping

structure Keyword where
  canonical : String
  shortcuts : List String
  deriving DecidableEq, Repr

namespace Keyword

def spellings (k : Keyword) : List String := k.canonical :: k.shortcuts

def mappings : Keyword := ⟨"mappings", ["mapping"]⟩
def prefixes : Keyword := ⟨"prefixes", []⟩
def base : Keyword := ⟨"base", []⟩
def authors : Keyword := ⟨"authors", ["author"]⟩
def external : Keyword := ⟨"external", []⟩

def sources : Keyword := ⟨"sources", ["source"]⟩
def targets : Keyword := ⟨"targets", ["target"]⟩
def subjects : Keyword := ⟨"subjects", ["subject", "s"]⟩
def predicateObjects : Keyword := ⟨"predicateobjects", ["predicateobject", "po"]⟩
def graphs : Keyword := ⟨"graphs", ["graph", "g"]⟩
def condition : Keyword := ⟨"condition", ["conditions"]⟩

def predicates : Keyword := ⟨"predicates", ["predicate", "p"]⟩
def objects : Keyword := ⟨"objects", ["object", "o"]⟩
def inversePredicates : Keyword := ⟨"inversepredicates", ["inversepredicate", "i"]⟩

def value : Keyword := ⟨"value", ["v"]⟩
def type : Keyword := ⟨"type", []⟩
def datatype : Keyword := ⟨"datatype", []⟩
def language : Keyword := ⟨"language", []⟩
def mapping : Keyword := ⟨"mapping", []⟩
def quoted : Keyword := ⟨"quoted", []⟩
def quotedNonAsserted : Keyword := ⟨"quotedNonAsserted", []⟩

def function : Keyword := ⟨"function", ["fn", "f"]⟩
def parameters : Keyword := ⟨"parameters", ["pms"]⟩
def parameter : Keyword := ⟨"parameter", ["pm"]⟩
def side : Keyword := ⟨"from", []⟩

def access : Keyword := ⟨"access", []⟩
def referenceFormulation : Keyword := ⟨"referenceFormulation", []⟩
def iterator : Keyword := ⟨"iterator", []⟩
def query : Keyword := ⟨"query", []⟩
def delimiter : Keyword := ⟨"delimiter", []⟩
def serialization : Keyword := ⟨"serialization", []⟩
def compression : Keyword := ⟨"compression", []⟩

def name : Keyword := ⟨"name", []⟩
def email : Keyword := ⟨"email", []⟩
def website : Keyword := ⟨"website", []⟩
def webId : Keyword := ⟨"webid", []⟩

def payload : List Keyword := [function, parameters, parameter, value]

def canonicalOf (key : String) : String :=
  match payload.find? fun k => k.spellings.contains key with
  | some k => k.canonical
  | none => key

end Keyword

end TabularRdf.Mapping
