import TabularRdf.Generation.Options
import TabularRdf.Iri.Resolver
import TabularRdf.Mapping.Problem
import TabularRdf.Mapping.Author
import TabularRdf.Rdf.Quad

/-!
The quads that describe the generated data set: its class, its title, and a creator for each author.
A creator is the WebID of its author, else the name, else the mail address, else the site.
-/
namespace TabularRdf.Generation

open Iri (Resolver)
open Mapping (Author MappingError)
open Rdf (Quad Term)

def creatorOf (author : Author) : Option Term :=
  match author.webId, author.name, author.email, author.website with
  | some webId, _, _, _ => some (.iri webId)
  | none, some name, _, _ => some (.plain name)
  | none, none, some email, _ => some (.iri ("mailto:" ++ email))
  | none, none, none, some website => some (.iri website)
  | none, none, none, none => none

def datasetQuads (metadata : DatasetMetadata) (authors : List Author) (resolver : Resolver) :
    Except MappingError (List Quad) := do
  let iri ← (resolver.expand metadata.iri).mapError fun failure =>
    .document (.datasetIri failure)
  let about (predicate : String) (object : Term) : Quad :=
    ⟨.iri iri, .iri predicate, object, none⟩
  return about Rdf.Vocabulary.rdfType (.iri Rdf.Vocabulary.dcatDataset) ::
    (metadata.title.toList.map fun title => about Rdf.Vocabulary.dctTitle (.plain title)) ++
    (authors.filterMap creatorOf).map (about Rdf.Vocabulary.dctCreator)

end TabularRdf.Generation
