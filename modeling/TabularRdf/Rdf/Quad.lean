import TabularRdf.Rdf.Term

/-!
Quads: a triple with the graph it belongs to, none for the default graph.
-/
namespace TabularRdf.Rdf

structure Quad where
  subject : Term
  predicate : Term
  object : Term
  graph : Option String
  deriving DecidableEq, Repr

namespace Quad

def quote (q : Quad) : Except TermError Term := Term.quote q.subject q.predicate q.object

def hasQuoted (q : Quad) : Bool := q.subject.isQuoted || q.object.isQuoted

def text (q : Quad) : String :=
  q.subject.text ++ " " ++ q.predicate.text ++ " " ++ q.object.text ++
    (match q.graph with
      | some graph => " <" ++ graph ++ ">"
      | none => "") ++ " ."

end Quad

end TabularRdf.Rdf
