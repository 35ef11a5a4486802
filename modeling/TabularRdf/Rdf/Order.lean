import TabularRdf.Rdf.Quad

/-!
The order of terms and quads: IRIs, then literals, then quoted triples; inside a kind by the parts from
left to right, a missing part before any other, and texts by code points.
-/
namespace TabularRdf.Rdf

def compareOptional : Option String → Option String → Ordering
  | none, none => .eq
  | none, some _ => .lt
  | some _, none => .gt
  | some a, some b => compare a b

def Literal.compare (a b : Literal) : Ordering :=
  (Ord.compare a.value b.value).then <|
    (compareOptional a.datatype b.datatype).then (compareOptional a.language b.language)

def Term.compare : Term → Term → Ordering
  | .iri a, .iri b => Ord.compare a b
  | .iri _, _ => .lt
  | .literal _, .iri _ => .gt
  | .literal a, .literal b => a.compare b
  | .literal _, .quoted .. => .lt
  | .quoted s p o, .quoted s' p' o' => (s.compare s').then ((p.compare p').then (o.compare o'))
  | .quoted .., _ => .gt

def Quad.compare (a b : Quad) : Ordering :=
  (a.subject.compare b.subject).then <|
    (a.predicate.compare b.predicate).then <|
      (a.object.compare b.object).then (compareOptional a.graph b.graph)

def sortTerms (terms : List Term) : List Term :=
  (terms.mergeSort fun a b => (a.compare b).isLE).eraseReps

def sortQuads (quads : List Quad) : List Quad :=
  quads.mergeSort fun a b => (a.compare b).isLE

end TabularRdf.Rdf
