import TabularRdf.Mapping.Join
import TabularRdf.Mapping.Source
import TabularRdf.Mapping.Template

/-!
Triples maps: sources, subjects and pairs of predicate and object. The subjects are templates, or the
quoted triples of another map.
-/
namespace TabularRdf.Mapping

inductive TermKind where
  | iri
  | literal
  deriving DecidableEq, Repr

structure ObjectTerm where
  template : Template
  kind : TermKind
  datatype : Option Template
  language : Option Template
  deriving DecidableEq, Repr

inductive ObjectSpec where
  | term (term : ObjectTerm)
  | reference (reference : MappingRef)
  | quoted (quoted : QuotedRef)
  | function (expression : Expression)
  deriving Repr

namespace ObjectSpec

def isResource : ObjectSpec → Bool
  | .term t => t.kind = .iri
  | .reference _ | .quoted _ => true
  | .function _ => false

def mapping? : ObjectSpec → Option String
  | .reference r => some r.mapping
  | .quoted q => some q.mapping
  | .term _ | .function _ => none

def term? : ObjectSpec → Option ObjectTerm
  | .term t => some t
  | _ => none

def quoted? : ObjectSpec → Option QuotedRef
  | .quoted q => some q
  | _ => none

def reference? : ObjectSpec → Option MappingRef
  | .reference r => some r
  | _ => none

end ObjectSpec

structure PredicateObject where
  predicate : Template
  object : ObjectSpec
  inverse : Option Template
  graphs : List Template
  condition : Option Expression
  deriving Repr

structure SubjectSpec where
  templates : List Template
  quoted : Option QuotedRef
  graphs : List Template
  functions : List Expression
  deriving Repr

structure TriplesMap where
  name : String
  sources : List Source
  targets : List Target
  subject : SubjectSpec
  predicateObjects : List PredicateObject
  graphs : List Template
  condition : Option Expression
  deriving Repr

namespace TriplesMap

def hasQuotedSubject (m : TriplesMap) : Bool := m.subject.quoted.isSome

def quotedRefs (m : TriplesMap) : List QuotedRef :=
  m.subject.quoted.toList ++ m.predicateObjects.filterMap fun po => po.object.quoted?

def referencedMappings (m : TriplesMap) : List String :=
  (m.subject.quoted.toList.map QuotedRef.mapping) ++
    m.predicateObjects.filterMap fun po => po.object.mapping?

def readsSource (m : TriplesMap) (key : String) : Bool := m.sources.any fun s => s.key = key

def sharesSources (a b : TriplesMap) : Bool :=
  a.sources.length = b.sources.length &&
    (a.sources.zip b.sources).all fun (s, t) => s.sameRows t

end TriplesMap

end TabularRdf.Mapping
