import TabularRdf.Iri.Encoding

/-!
The options of a run, and of reading a document.
-/
namespace TabularRdf.Generation

structure DatasetMetadata where
  iri : String
  title : Option String
  deriving DecidableEq, Repr

structure GenerationOptions where
  encoding : Iri.Encoding
  parallel : Bool
  maxRecorded : Nat
  dataset : Option DatasetMetadata
  deriving DecidableEq, Repr

def GenerationOptions.default : GenerationOptions := ⟨.percent, false, 1000, none⟩

end TabularRdf.Generation
