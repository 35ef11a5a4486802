import TabularRdf.Iri.Scheme
import TabularRdf.Text.Blank
import TabularRdf.Text.Split

/-!
Authors of a document. On one line an author is either a bare WebID or a name, a mail address in angle
brackets and a site in parentheses, each of them optional.
-/
namespace TabularRdf.Mapping

structure Author where
  name : Option String
  email : Option String
  website : Option String
  webId : Option String
  deriving DecidableEq, Repr

namespace Author

def isEmpty (a : Author) : Bool :=
  a.name.isNone && a.email.isNone && a.website.isNone && a.webId.isNone

def isWebId (cs : List Char) : Bool :=
  match Text.splitFirst? ':' cs with
  | some (scheme, '/' :: '/' :: rest) =>
    Iri.isScheme scheme && !rest.isEmpty && rest.all fun c => !Text.isBlank c
  | _ => false

def partOf (cs : List Char) : Option String :=
  let cs := Text.trim cs
  if cs.isEmpty then none else some (String.ofList cs)

def bracketed? (opening closing : Char) : List Char → Option (List Char × List Char)
  | [] => some ([], [])
  | c :: rest =>
    if c = opening then
      (Text.splitFirst? closing rest).map fun (part, rest) => (part, Text.trimLeft rest)
    else some ([], c :: rest)

def parseShortcut (text : String) : Option Author := do
  let cs := Text.trim text.toList
  if isWebId cs then return ⟨none, none, none, some (String.ofList cs)⟩
  let isName (c : Char) : Bool := c != '<' && c != '('
  let (email, rest) ← bracketed? '<' '>' (cs.dropWhile isName)
  let (website, rest) ← bracketed? '(' ')' rest
  if !rest.isEmpty then none
  let author : Author := ⟨partOf (cs.takeWhile isName), partOf email, partOf website, none⟩
  if author.isEmpty then none else some author

end Author

end TabularRdf.Mapping
