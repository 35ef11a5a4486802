import TabularRdf.Iri.Encoding
import TabularRdf.Iri.Scheme
import TabularRdf.Named
import TabularRdf.Rdf.Failure
import TabularRdf.Text.Blank
import TabularRdf.Text.Split

/-!
From written names to absolute IRIs. A name with a declared prefix is expanded, one with another prefix
stays as written, and one without a colon is put behind the base.
-/
namespace TabularRdf.Iri

open Rdf (TermFailure)

structure Resolver where
  prefixes : Named String
  base : Option String
  encoding : Encoding
  deriving DecidableEq, Repr

namespace Resolver

def qualify (r : Resolver) (relative : String) : String :=
  match r.base with
  | some base => base ++ relative
  | none => relative

def splitName? (value : String) : Option (String × String) :=
  (Text.splitFirst? ':' value.toList).map fun (a, b) => (String.ofList a, String.ofList b)

def expandHead (r : Resolver) (value : String) : String :=
  match splitName? value with
  | some (head, rest) =>
    match r.prefixes.lookup head with
    | some namespaceIri => namespaceIri ++ rest
    | none => value
  | none => r.qualify value

def expand (r : Resolver) (value : String) : Except TermFailure String :=
  if value.isEmpty then .error (.invalid .emptyIri) else .ok (r.expandHead value)

def isNameOrAbsolute (r : Resolver) (value : String) : Bool :=
  if value.toList.any Text.isBlank then false
  else match splitName? value with
    | some (head, _) => (r.prefixes.lookup head).isSome || isScheme head.toList
    | none => false

/-- The IRI that a whole column value stands for. A value that is no name and not absolute, such as
`10:30`, is encoded and put behind the base. -/
def resolveReference (r : Resolver) (value : String) : Except TermFailure String :=
  if value.isEmpty then .error (.invalid .emptyIri)
  else if r.isNameOrAbsolute value then r.expand value
  else .ok (r.qualify (r.encoding.encode value))

end Resolver

end TabularRdf.Iri
