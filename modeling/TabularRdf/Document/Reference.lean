import TabularRdf.Document.Context
import TabularRdf.Mapping.Join

/-!
References to other mappings and the conditions on which their rows meet, in long form or as a call
`join(quoted=X, equal(str1=$(a), str2=$(b)), ...)`. A parameter of a condition belongs to the side
that is written, else to that of its name, else to that of its place.
-/
namespace TabularRdf.Document

open Mapping (InlineCall JoinCondition JoinKey Keyword MappingError QuoteFilter QuotedRef Template)

def isEqual (function : String) : Bool :=
  match Text.splitLast? ':' function.toList with
  | some (_, name) => name = "equal".toList
  | none => function = "equal"

def columnOf (owner : String) (value : String) : Except MappingError String := do
  let template ← Template.parse value
  match template.singleColumn? with
  | some column => return column
  | none => throw (.validation owner (.notSingleColumn value))

inductive Side where
  | child
  | parent
  deriving DecidableEq, Repr

structure Parameter where
  name : Option String
  value : Option String
  side : Option String
  deriving DecidableEq, Repr

def Parameter.ofJson (owner : String) : Json → Except MappingError Parameter
  | .arr parts =>
    let part (n : Nat) : Option String := (parts[n]?).bind scalarText?
    .ok ⟨part 0, part 1, part 2⟩
  | .obj fields => do
    let s : Section := ⟨owner, fields⟩
    let name ← s.text? .parameter
    let value ← s.text? .value
    let side ← s.text? .side
    return ⟨name, value, side⟩
  | _ => .error (.validation owner .equalParameterForm)

def Parameter.sideAt (owner : String) (place : Nat) (p : Parameter) : Except MappingError Side :=
  match p.side, p.name with
  | some "s", _ => .ok .child
  | some "o", _ => .ok .parent
  | some other, _ => .error (.validation owner (.parameterSide other))
  | none, some "str1" => .ok .child
  | none, some "str2" => .ok .parent
  | none, _ => .ok (if place = 0 then .child else .parent)

structure KeyParts where
  child : Option String
  parent : Option String
  deriving DecidableEq, Repr

def KeyParts.enter (owner : String) (parts : KeyParts) (side : Side) (column : String) :
    Except MappingError KeyParts :=
  match side, parts.child, parts.parent with
  | .child, none, parent => .ok ⟨some column, parent⟩
  | .parent, child, none => .ok ⟨child, some column⟩
  | _, _, _ => .error (.validation owner .sameSide)

def keyParts (owner : String) : Nat → KeyParts → List Json → Except MappingError KeyParts
  | _, parts, [] => .ok parts
  | place, parts, value :: rest => do
    let parameter ← Parameter.ofJson owner value
    let side ← parameter.sideAt owner place
    let some text := parameter.value | throw (.validation owner .parameterWithoutValue)
    let column ← columnOf owner text
    let parts ← parts.enter owner side column
    keyParts owner (place + 1) parts rest

def equalKey (owner : String) (parameters : Json) : Except MappingError JoinKey := do
  match ← keyParts owner 0 ⟨none, none⟩ (itemsOf parameters) with
  | ⟨some child, some parent⟩ => return ⟨child, parent⟩
  | _ => throw (.validation owner .equalNeedsTwo)

structure ConditionItem where
  key : Option JoinKey
  predicates : List String
  graphs : List String
  deriving DecidableEq, Repr

def conditionKey (s : Section) : Except MappingError (Option JoinKey) := do
  match ← s.text? .function with
  | some function =>
    if isEqual function then
      let some parameters ← s.get? .parameters
        | throw (.validation s.owner .equalWithoutParameters)
      let key ← equalKey s.owner parameters
      return some key
    else throw (.validation s.owner (.notEqual function))
  | none =>
    match ← s.get? .parameters with
    | some _ => throw (.validation s.owner .conditionWithoutFunction)
    | none => return none

def filterIris (context : Context) (s : Section) (keyword : Keyword) (problem : Mapping.Problem) :
    Except MappingError (List String) := do
  match ← s.get? keyword with
  | none => return []
  | some value =>
    (itemsOf value).mapM fun item => do
      let text ← scalarOr s.owner problem item
      context.expand s.owner text

def conditionItem (context : Context) (owner : String) (value : Json) :
    Except MappingError ConditionItem := do
  let s ← Section.ofValue owner "condition" value
  let key ← conditionKey s
  let predicates ← filterIris context s .predicates .filterPredicateNotAString
  let graphs ← filterIris context s .graphs .filterGraphNotAString
  return { key, predicates, graphs }

def joinCondition (context : Context) (owner : String) (value : Json) :
    Except MappingError (Option JoinCondition × QuoteFilter) := do
  let items ← (itemsOf value).mapM (conditionItem context owner)
  return (JoinCondition.ofKeys? (items.filterMap ConditionItem.key),
    ⟨items.flatMap ConditionItem.predicates, items.flatMap ConditionItem.graphs⟩)

def conditionUnder (context : Context) (s : Section) :
    Except MappingError (Option JoinCondition × QuoteFilter) := do
  match ← s.get? .condition with
  | none => return (none, .all)
  | some value => joinCondition context s.owner value

def quotedName (s : Section) : Except MappingError (Option (String × Bool)) := do
  let asserted ← s.text? .quoted
  let other ← s.text? .quotedNonAsserted
  match asserted, other with
  | none, none => return none
  | some name, none => return some (name, true)
  | none, some name => return some (name, false)
  | some _, some _ =>
    throw (.validation s.owner
      (.exclusiveKeys Keyword.quoted.canonical Keyword.quotedNonAsserted.canonical))

def quotedRef (context : Context) (s : Section) : Except MappingError (Option QuotedRef) := do
  match ← quotedName s with
  | none => return none
  | some (mapping, asserted) =>
    let (condition, filter) ← conditionUnder context s
    return some ⟨mapping, asserted, condition, filter⟩

def joinArgument (owner : String) (argument : String) : Except MappingError JoinKey := do
  let some call := (InlineCall.parse argument).filter fun call => isEqual call.name
    | throw (.validation owner (.joinArgument argument))
  match call.arg? "str1", call.arg? "str2" with
  | some child, some parent =>
    let child ← columnOf owner child
    let parent ← columnOf owner parent
    return ⟨child, parent⟩
  | _, _ => throw (.validation owner .equalCallArguments)

def calledName (owner : String) (call : InlineCall) : Except MappingError (String × Bool) :=
  match call.arg? "quoted", call.arg? "quotedNonAsserted" with
  | some name, none => .ok (name, true)
  | none, some name => .ok (name, false)
  | _, _ => .error (.validation owner .joinWithoutQuoted)

def joinCall (owner : String) (call : InlineCall) : Except MappingError QuotedRef := do
  let (mapping, asserted) ← calledName owner call
  let keys ← call.positional.mapM (joinArgument owner)
  return ⟨mapping, asserted, JoinCondition.ofKeys? keys, .all⟩

end TabularRdf.Document
