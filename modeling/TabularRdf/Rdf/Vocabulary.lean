/-!
The IRIs of the RDF vocabularies that mappings and dataset descriptions use.
-/
namespace TabularRdf.Rdf.Vocabulary

def rdf : String := "http://www.w3.org/1999/02/22-rdf-syntax-ns#"
def rdfType : String := "http://www.w3.org/1999/02/22-rdf-syntax-ns#type"
def rdfLangString : String := "http://www.w3.org/1999/02/22-rdf-syntax-ns#langString"

def rdfs : String := "http://www.w3.org/2000/01/rdf-schema#"
def rdfsLabel : String := "http://www.w3.org/2000/01/rdf-schema#label"

def xsd : String := "http://www.w3.org/2001/XMLSchema#"
def xsdString : String := "http://www.w3.org/2001/XMLSchema#string"
def xsdInteger : String := "http://www.w3.org/2001/XMLSchema#integer"
def xsdDecimal : String := "http://www.w3.org/2001/XMLSchema#decimal"
def xsdDouble : String := "http://www.w3.org/2001/XMLSchema#double"
def xsdBoolean : String := "http://www.w3.org/2001/XMLSchema#boolean"
def xsdDate : String := "http://www.w3.org/2001/XMLSchema#date"
def xsdDateTime : String := "http://www.w3.org/2001/XMLSchema#dateTime"

def dcat : String := "http://www.w3.org/ns/dcat#"
def dcatDataset : String := "http://www.w3.org/ns/dcat#Dataset"

def dct : String := "http://purl.org/dc/terms/"
def dctTitle : String := "http://purl.org/dc/terms/title"
def dctCreator : String := "http://purl.org/dc/terms/creator"
def dctCreated : String := "http://purl.org/dc/terms/created"

def prov : String := "http://www.w3.org/ns/prov#"
def provWasDerivedFrom : String := "http://www.w3.org/ns/prov#wasDerivedFrom"
def provWasAttributedTo : String := "http://www.w3.org/ns/prov#wasAttributedTo"

def standard : List (String × String) := [("rdf", rdf), ("rdfs", rdfs), ("xsd", xsd)]

end TabularRdf.Rdf.Vocabulary
