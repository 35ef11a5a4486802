import TabularRdf.Rdf.Quad

/-!
References between mappings and the columns on which their rows meet. The keys of a condition are kept in
order and without repetition, so that equal conditions are written alike. A filter that is empty lets
every quad pass.
-/
namespace TabularRdf.Mapping

structure JoinKey where
  child : String
  parent : String
  deriving DecidableEq, Repr

def JoinKey.le (a b : JoinKey) : Bool :=
  ((compare a.child b.child).then (compare a.parent b.parent)).isLE

structure JoinCondition where
  keys : List JoinKey
  deriving DecidableEq, Repr

namespace JoinCondition

/-- The condition of a list of keys; none for no keys, which would pair every row with every row. -/
def ofKeys? (keys : List JoinKey) : Option JoinCondition :=
  if keys.isEmpty then none else some ⟨(keys.mergeSort JoinKey.le).eraseReps⟩

def single (child parent : String) : JoinCondition := ⟨[⟨child, parent⟩]⟩

def childColumns (c : JoinCondition) : List String := c.keys.map JoinKey.child

def parentColumns (c : JoinCondition) : List String := c.keys.map JoinKey.parent

end JoinCondition

structure QuoteFilter where
  predicates : List String
  graphs : List String
  deriving DecidableEq, Repr

namespace QuoteFilter

def all : QuoteFilter := ⟨[], []⟩

def isEmpty (f : QuoteFilter) : Bool := f.predicates.isEmpty && f.graphs.isEmpty

def passes (allowed : List String) (iri : Option String) : Bool :=
  allowed.isEmpty || (iri.map allowed.contains).getD false

def accepts (f : QuoteFilter) (q : Rdf.Quad) : Bool :=
  passes f.predicates q.predicate.iri? && passes f.graphs q.graph

end QuoteFilter

structure QuotedRef where
  mapping : String
  asserted : Bool
  condition : Option JoinCondition
  filter : QuoteFilter
  deriving DecidableEq, Repr

structure MappingRef where
  mapping : String
  condition : Option JoinCondition
  deriving DecidableEq, Repr

end TabularRdf.Mapping
