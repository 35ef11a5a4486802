import TabularRdf.Rdf.Vocabulary

/-!
RDF terms with quoted triples: an IRI, a literal, or a triple used as a term. The checked constructors
refuse a literal with both a datatype and a language, and a quoted triple that nests another or whose
subject or predicate is no IRI.
-/
namespace TabularRdf.Rdf

structure Literal where
  value : String
  datatype : Option String
  language : Option String
  deriving DecidableEq, Repr

inductive Term where
  | iri (name : String)
  | literal (value : Literal)
  | quoted (subject predicate object : Term)
  deriving DecidableEq, Repr

inductive TermError where
  | datatypeAndLanguage (value datatype language : String)
  | nestedQuote (term : Term)
  | invalidSubject (term : Term)
  | invalidPredicate (term : Term)
  deriving DecidableEq, Repr

namespace Literal

def plain (value : String) : Literal := ⟨value, none, none⟩
def typed (value datatype : String) : Literal := ⟨value, some datatype, none⟩
def tagged (value language : String) : Literal := ⟨value, none, some language⟩

def make (value : String) : Option String → Option String → Except TermError Literal
  | some datatype, some language => .error (.datatypeAndLanguage value datatype language)
  | datatype, language => .ok ⟨value, datatype, language⟩

def effectiveDatatype (l : Literal) : String :=
  match l.datatype, l.language with
  | some datatype, _ => datatype
  | none, some _ => Vocabulary.rdfLangString
  | none, none => Vocabulary.xsdString

def escapeChar (c : Char) : List Char :=
  if c = '\x22' then ['\\', '\x22']
  else if c = '\\' then ['\\', '\\']
  else if c = '\n' then ['\\', 'n']
  else if c = '\r' then ['\\', 'r']
  else if c = '\t' then ['\\', 't']
  else [c]

/- What follows the quoted value; a language is written before a datatype is looked at. -/
def suffix (l : Literal) : List Char :=
  match l.language, l.datatype with
  | some language, _ => '@' :: language.toList
  | none, some datatype => '^' :: '^' :: '<' :: datatype.toList ++ ['>']
  | none, none => []

def chars (l : Literal) : List Char :=
  '\x22' :: l.value.toList.flatMap escapeChar ++ '\x22' :: l.suffix

def text (l : Literal) : String := String.ofList l.chars

end Literal

namespace Term

def isIri : Term → Bool
  | .iri _ => true
  | _ => false

def isLiteral : Term → Bool
  | .literal _ => true
  | _ => false

def isQuoted : Term → Bool
  | .quoted .. => true
  | _ => false

def iri? : Term → Option String
  | .iri name => some name
  | _ => none

def literal? : Term → Option Literal
  | .literal value => some value
  | _ => none

def quoted? : Term → Option (Term × Term × Term)
  | .quoted s p o => some (s, p, o)
  | _ => none

def plain (value : String) : Term := .literal (.plain value)

def text : Term → String
  | .iri name => "<" ++ name ++ ">"
  | .literal value => value.text
  | .quoted s p o => "<< " ++ s.text ++ " " ++ p.text ++ " " ++ o.text ++ " >>"

def quote (s p o : Term) : Except TermError Term :=
  match [s, p, o].find? isQuoted with
  | some nested => .error (.nestedQuote nested)
  | none =>
    if !s.isIri then .error (.invalidSubject s)
    else if !p.isIri then .error (.invalidPredicate p)
    else .ok (.quoted s p o)

theorem quotedExactly {s p o t : Term} :
    quote s p o = .ok t ↔ s.isIri ∧ p.isIri ∧ o.isQuoted = false ∧ t = .quoted s p o := by
  cases s <;> cases p <;> cases o <;>
    simp [quote, isQuoted, isIri, List.find?, eq_comm]

end Term

def TermError.message : TermError → String
  | .datatypeAndLanguage value datatype language =>
    "literal \"" ++ value ++ "\" cannot carry both datatype <" ++ datatype ++
      "> and language '" ++ language ++ "'"
  | .nestedQuote term => "quoted triples cannot be nested: " ++ term.text
  | .invalidSubject term => "invalid subject term " ++ term.text ++ ": must be an IRI or quoted triple"
  | .invalidPredicate term => "invalid predicate term " ++ term.text ++ ": must be an IRI"

end TabularRdf.Rdf
