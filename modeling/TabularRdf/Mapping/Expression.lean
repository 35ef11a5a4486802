import TabularRdf.Json.Basic
import TabularRdf.Mapping.InlineCall
import TabularRdf.Mapping.Keyword

/-!
Functions and conditions that are carried without being evaluated. A payload keeps the written value
with every keyword in its canonical spelling; two spellings of one keyword in one object are refused.
-/
namespace TabularRdf.Mapping

inductive ExpressionKind where
  | function
  | condition
  deriving DecidableEq, Repr

structure Expression where
  kind : ExpressionKind
  payload : Json
  deriving Repr

structure DuplicateKey where
  canonical : String
  key : String
  deriving DecidableEq, Repr

def DuplicateKey.message (d : DuplicateKey) : String :=
  "'" ++ d.canonical ++ "' is given more than once (as '" ++ d.key ++ "')"

mutual

def canonicalizeKeys : Json → Except DuplicateKey Json
  | .obj fields => (canonicalizeFields [] fields).map .obj
  | .arr items => (canonicalizeItems items).map .arr
  | scalar => .ok scalar

def canonicalizeItems : List Json → Except DuplicateKey (List Json)
  | [] => .ok []
  | item :: rest => do
    let item ← canonicalizeKeys item
    let rest ← canonicalizeItems rest
    return item :: rest

def canonicalizeFields (seen : List String) :
    List (String × Json) → Except DuplicateKey (List (String × Json))
  | [] => .ok []
  | (key, value) :: rest =>
    let canonical := Keyword.canonicalOf key
    if canonical ∈ seen then .error ⟨canonical, key⟩
    else do
      let value ← canonicalizeKeys value
      let rest ← canonicalizeFields (canonical :: seen) rest
      return (canonical, value) :: rest

end

namespace Expression

def parameterOf : Option String × String → Json
  | (some key, value) =>
    .obj [(Keyword.parameter.canonical, .str key), (Keyword.value.canonical, .str value)]
  | (none, value) => .obj [(Keyword.value.canonical, .str value)]

def ofCall (kind : ExpressionKind) (call : InlineCall) : Expression where
  kind := kind
  payload := .obj [(Keyword.function.canonical, .str call.name),
    (Keyword.parameters.canonical, .arr (call.args.map parameterOf))]

def functionName? (e : Expression) : Option String :=
  (e.payload.get? Keyword.function.canonical).bind Json.str?

end Expression

end TabularRdf.Mapping
