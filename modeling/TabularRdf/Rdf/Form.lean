import TabularRdf.Json.Record
import TabularRdf.Rdf.Quad

/-!
The JSON forms of terms and quads.
-/
namespace TabularRdf.Rdf

open Json (fieldOr? ofOption optionalText?)

def Literal.toJson (l : Literal) : Json :=
  .obj [("value", .str l.value), ("datatype", ofOption l.datatype), ("language", ofOption l.language)]

def Term.toJson : Term → Json
  | .iri name => .obj [("Iri", .str name)]
  | .literal value => .obj [("Literal", value.toJson)]
  | .quoted s p o =>
    .obj [("Quoted", .obj [("subject", s.toJson), ("predicate", p.toJson), ("object", o.toJson)])]

def Quad.toJson (q : Quad) : Json :=
  .obj [("subject", q.subject.toJson), ("predicate", q.predicate.toJson),
    ("object", q.object.toJson), ("graph", ofOption q.graph)]

def Literal.ofJson? (form : Json) : Option Literal := do
  let fields ← form.fullRecord? ["value", "datatype", "language"]
  let value ← (← fields.lookup "value").str?
  let datatype ← fieldOr? fields "datatype" none optionalText?
  let language ← fieldOr? fields "language" none optionalText?
  some ⟨value, datatype, language⟩

def Term.ofForm? : Nat → Json → Option Term
  | 0, _ => none
  | depth + 1, form =>
    match form with
    | .obj [("Iri", .str name)] => some (.iri name)
    | .obj [("Literal", value)] => (Literal.ofJson? value).map .literal
    | .obj [("Quoted", triple)] => do
      let fields ← triple.fullRecord? ["subject", "predicate", "object"]
      let subject ← ofForm? depth (← fields.lookup "subject")
      let predicate ← ofForm? depth (← fields.lookup "predicate")
      let object ← ofForm? depth (← fields.lookup "object")
      some (.quoted subject predicate object)
    | _ => none

/- A term from its form. Every quoted triple in a form is an object, so quoted triples nest less deep
than the form, and a literal or an IRI takes one level more. -/
def Term.ofJson? (form : Json) : Option Term := ofForm? (form.depth + 1) form

end TabularRdf.Rdf
