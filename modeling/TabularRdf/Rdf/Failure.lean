import TabularRdf.Rdf.Term

/-!
Why a row gives no term: a column that is not there, a null, or texts that make no valid term.
-/
namespace TabularRdf.Rdf

inductive InvalidTerm where
  | emptyIri
  | emptyLanguage
  | malformed (error : TermError)
  deriving DecidableEq, Repr

inductive TermFailure where
  | missingColumn (column : String)
  | nullValue (column : String)
  | invalid (reason : InvalidTerm)
  deriving DecidableEq, Repr

def InvalidTerm.message : InvalidTerm → String
  | .emptyIri => "empty IRI"
  | .emptyLanguage => "empty language tag"
  | .malformed error => error.message

def TermFailure.message : TermFailure → String
  | .missingColumn column => "column '" ++ column ++ "' is not present in the row"
  | .nullValue column => "column '" ++ column ++ "' is null"
  | .invalid reason => reason.message

end TabularRdf.Rdf
