import TabularRdf.Mapping.Problem
import TabularRdf.Named

/-!
Templates: text with `$(column)` placeholders. A backslash before `$(` makes it text. A template keeps the
text it was read from, and substituting external values keeps that text in step with the segments. An
external value stands for the column of its name behind an underscore.
-/
namespace TabularRdf.Mapping

inductive Segment where
  | text (text : String)
  | column (name : String)
  deriving DecidableEq, Repr

def Segment.text? : Segment → Option String
  | .text t => some t
  | .column _ => none

def Segment.column? : Segment → Option String
  | .text _ => none
  | .column name => some name

structure Template where
  source : String
  segments : List Segment
  deriving DecidableEq, Repr

namespace Template

inductive Token where
  | char (c : Char)
  | column (name : List Char)
  deriving DecidableEq, Repr

/-- Reads tokens from left to right. Inside a placeholder the first argument holds the characters of its
name, last one first; a name ends at the first closing parenthesis and is trimmed. -/
def scan : Option (List Char) → List Char → Except TemplateProblem (List Token)
  | none, [] => .ok []
  | some _, [] => .error .unterminated
  | some name, c :: rest =>
    if c = ')' then
      let name := Text.trim name.reverse
      if name.isEmpty then .error .emptyPlaceholder
      else (scan none rest).map (.column name :: ·)
    else scan (some (c :: name)) rest
  | none, '\\' :: '$' :: '(' :: rest =>
    (scan none rest).map fun tokens => .char '$' :: .char '(' :: tokens
  | none, '$' :: '(' :: rest => scan (some []) rest
  | none, c :: rest => (scan none rest).map (.char c :: ·)

def flush (pending : List Char) : List Segment :=
  if pending.isEmpty then [] else [.text (String.ofList pending.reverse)]

def gather : List Char → List Token → List Segment
  | pending, [] => flush pending
  | pending, .char c :: rest => gather (c :: pending) rest
  | pending, .column name :: rest => flush pending ++ .column (String.ofList name) :: gather [] rest

def parse (source : String) : Except MappingError Template :=
  match scan none source.toList with
  | .ok tokens => .ok ⟨source, gather [] tokens⟩
  | .error problem => .error (.invalidTemplate source problem)

def constant (value : String) : Template :=
  ⟨value, if value.isEmpty then [] else [.text value]⟩

def isConstant (t : Template) : Bool := t.segments.all fun s => s.text?.isSome

theorem constantExactly {t : Template} : t.isConstant ↔ ∀ name, .column name ∉ t.segments := by
  rw [isConstant, List.all_eq_true]
  refine ⟨fun plain name mem => absurd (plain _ mem) Bool.false_ne_true, fun absent s mem => ?_⟩
  cases s with
  | text t => rfl
  | column name => exact absurd mem (absent name)

def constant? (t : Template) : Option String :=
  if t.isConstant then some (String.join (t.segments.filterMap Segment.text?)) else none

def singleColumn? (t : Template) : Option String :=
  match t.segments with
  | [.column name] => some name
  | _ => none

def columns (t : Template) : List String := t.segments.filterMap Segment.column?

def externalValue? (external : Named String) : Segment → Option String
  | .text _ => none
  | .column name =>
    match name.toList with
    | '_' :: rest => external.lookup (String.ofList rest)
    | _ => none

def mergeText : List Segment → List Segment
  | [] => []
  | .column name :: rest => .column name :: mergeText rest
  | .text t :: rest =>
    match mergeText rest with
    | .text u :: more => .text (t ++ u) :: more
    | more => .text t :: more

def escapeOpening : List Char → List Char
  | [] => []
  | '$' :: '(' :: rest => '\\' :: '$' :: '(' :: escapeOpening rest
  | c :: rest => c :: escapeOpening rest

def renderSegment : Segment → String
  | .text t => String.ofList (escapeOpening t.toList)
  | .column name => "$(" ++ name ++ ")"

def render (segments : List Segment) : String := String.join (segments.map renderSegment)

def withExternals (t : Template) (external : Named String) : Template :=
  if external.isEmpty then t
  else
    let segments := mergeText <| t.segments.map fun s =>
      match externalValue? external s with
      | some value => .text value
      | none => s
    let changed := t.segments.any fun s => (externalValue? external s).isSome
    ⟨if changed then render segments else t.source, segments⟩

end Template

end TabularRdf.Mapping
