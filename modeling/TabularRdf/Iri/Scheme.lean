/-!
The scheme of an IRI: an ASCII letter, then ASCII letters, digits, plus, point and minus.
-/
namespace TabularRdf.Iri

def isAsciiLetter (c : Char) : Bool := ('A' ≤ c && c ≤ 'Z') || ('a' ≤ c && c ≤ 'z')

def isSchemeChar (c : Char) : Bool :=
  isAsciiLetter c || ('0' ≤ c && c ≤ '9') || c == '+' || c == '.' || c == '-'

def isScheme : List Char → Bool
  | [] => false
  | c :: rest => isAsciiLetter c && rest.all isSchemeChar

end TabularRdf.Iri
