import TabularRdf.Proofs.JoinSpellings

/-! What a `join` call takes of its arguments. The first value of a key counts, and neither a second one nor a key
that means nothing is refused. A call says what it is read as when nothing stands beside that. The other arguments
say keys when each is a call of `equal` with `str1` and `str2` and nothing else. -/
namespace TabularRdf.Mapping.InlineCall

variable {call : InlineCall} {key value : String}

def First (call : InlineCall) (key value : String) : Prop :=
  ∃ before after, call.args = before ++ (some key, value) :: after ∧ ∀ arg ∈ before, arg.1 ≠ some key

def Lacks (call : InlineCall) (key : String) : Prop := ∀ arg ∈ call.args, arg.1 ≠ some key

theorem argFirst : call.arg? key = some value ↔ call.First key value := by
  simp only [arg?, Option.map_eq_some_iff, List.find?_eq_some_iff_append]
  constructor
  · rintro ⟨⟨name, _⟩, ⟨named, before, after, split, others⟩, rfl⟩
    cases beq_iff_eq.mp named
    exact ⟨before, after, split, fun arg mem => by simpa using others arg mem⟩
  · rintro ⟨before, after, split, others⟩
    exact ⟨(some key, value), ⟨beq_self_eq_true _, before, after, split, fun arg mem => by simpa using others arg mem⟩,
      rfl⟩

theorem argLacks : call.arg? key = none ↔ call.Lacks key := by
  simp [arg?, Lacks]

theorem firstMember (first : call.First key value) : (some key, value) ∈ call.args := by
  obtain ⟨before, after, split, -⟩ := first
  rw [split]
  exact List.mem_append_right _ List.mem_cons_self

end TabularRdf.Mapping.InlineCall

namespace TabularRdf.Document
open Mapping Loading InlineCall

def IsColumn (text column : String) : Prop :=
  ∃ template, Template.parse text = .ok template ∧ template.singleColumn? = some column

theorem columnExactly {owner text column : String} : columnOf owner text = .ok column ↔ IsColumn text column := by
  rw [columnOf, boundOk]
  refine exists_congr fun template => and_congr_right fun _ => ?_
  cases template.singleColumn? with
  | none => simp [throw, throwThe, MonadExceptOf.throw]
  | some other => simp [pureOk]

def EqualCall (argument : String) (inner : InlineCall) : Prop :=
  InlineCall.parse argument = some inner ∧ isEqual inner.name

def TakesKey (argument : String) (key : JoinKey) : Prop :=
  ∃ inner child parent, EqualCall argument inner ∧ inner.First "str1" child ∧ inner.First "str2" parent ∧
    IsColumn child key.child ∧ IsColumn parent key.parent

def SaysKey (argument : String) (key : JoinKey) : Prop :=
  ∃ inner child parent, EqualCall argument inner ∧
    (inner.args = [(some "str1", child), (some "str2", parent)] ∨
      inner.args = [(some "str2", parent), (some "str1", child)]) ∧
    IsColumn child key.child ∧ IsColumn parent key.parent

structure TakesJoin (call : InlineCall) (quoted : QuotedRef) : Prop where
  named : call.First (quotedKeyword quoted.asserted).canonical quoted.mapping
  other : call.Lacks (quotedKeyword !quoted.asserted).canonical
  keyed : ∃ keys, List.Forall₂ TakesKey call.positional keys ∧ quoted.condition = JoinCondition.ofKeys? keys
  whole : quoted.filter = .all

def keyedArgs (call : InlineCall) : List (Option String × String) := call.args.filter fun (key, _) => key.isSome

/-- A call says a reference when it names one mapping, once, and all other arguments say a key. -/
structure SaysJoin (call : InlineCall) (quoted : QuotedRef) : Prop where
  named : keyedArgs call = [(some (quotedKeyword quoted.asserted).canonical, quoted.mapping)]
  keyed : ∃ keys, List.Forall₂ SaysKey call.positional keys ∧ quoted.condition = JoinCondition.ofKeys? keys
  whole : quoted.filter = .all

structure NothingBeside (call : InlineCall) : Prop where
  once : (keyedArgs call).length = 1
  paired : ∀ argument ∈ call.positional, ∀ inner, InlineCall.parse argument = some inner → inner.args.length = 2

section

variable {owner argument : String} {call : InlineCall} {key : JoinKey} {quoted : QuotedRef}

theorem equalCallExactly {inner : InlineCall} :
    (InlineCall.parse argument).filter (fun call => isEqual call.name) = some inner ↔ EqualCall argument inner :=
  Option.filter_eq_some_iff

theorem keyMade {child parent : String} : (do
    let child ← columnOf owner child
    let parent ← columnOf owner parent
    return (⟨child, parent⟩ : JoinKey)) = .ok key ↔ IsColumn child key.child ∧ IsColumn parent key.parent := by
  simp only [boundOk, columnExactly, pureOk]
  constructor
  · rintro ⟨_, left, _, right, rfl⟩
    exact ⟨left, right⟩
  · rintro ⟨left, right⟩
    exact ⟨_, left, _, right, rfl⟩

theorem argumentTaken : joinArgument owner argument = .ok key ↔ TakesKey argument key := by
  cases found : (InlineCall.parse argument).filter fun call => isEqual call.name with
  | none =>
    simp only [joinArgument, found]
    constructor
    · intro loaded
      contradiction
    · rintro ⟨inner, _, _, equal, _⟩
      rw [equalCallExactly.mpr equal] at found
      contradiction
  | some inner =>
    have read : joinArgument owner argument = .ok key ↔ ∃ child parent, inner.arg? "str1" = some child ∧
        inner.arg? "str2" = some parent ∧ IsColumn child key.child ∧ IsColumn parent key.parent := by
      simp only [joinArgument, found]
      cases inner.arg? "str1" with
      | none => simp [throw, throwThe, MonadExceptOf.throw]
      | some child =>
        cases inner.arg? "str2" with
        | none => simp [throw, throwThe, MonadExceptOf.throw]
        | some parent =>
          dsimp only
          rw [keyMade]
          simp
    simp only [read, argFirst, TakesKey]
    constructor
    · rintro ⟨child, parent, given⟩
      exact ⟨inner, child, parent, equalCallExactly.mp found, given⟩
    · rintro ⟨other, child, parent, equal, given⟩
      cases Option.some.inj (found.symm.trans (equalCallExactly.mpr equal))
      exact ⟨child, parent, given⟩

theorem nameTaken {mapping : String} {asserted : Bool} : calledName owner call = .ok (mapping, asserted) ↔
    call.First (quotedKeyword asserted).canonical mapping ∧ call.Lacks (quotedKeyword !asserted).canonical := by
  rw [← argFirst, ← argLacks, calledName]
  cases first : call.arg? "quoted" <;> cases second : call.arg? "quotedNonAsserted" <;> cases asserted <;>
    simp [quotedKeyword, Keyword.quoted, Keyword.quotedNonAsserted, first, second]

theorem callTaken : joinCall owner call = .ok quoted ↔ TakesJoin call quoted := by
  simp only [joinCall, boundOk, pureOk, mappedOk, argumentTaken, Prod.exists, nameTaken]
  constructor
  · rintro ⟨mapping, asserted, ⟨named, other⟩, keys, each, rfl⟩
    exact ⟨named, other, ⟨keys, each, rfl⟩, rfl⟩
  · rintro ⟨named, other, ⟨keys, each, made⟩, whole⟩
    refine ⟨_, _, ⟨named, other⟩, keys, each, ?_⟩
    rw [← made, ← whole]

theorem keySaid : SaysKey argument key ↔ (∀ inner, InlineCall.parse argument = some inner → inner.args.length = 2) ∧
    TakesKey argument key := by
  constructor
  · rintro ⟨inner, child, parent, equal, listed, columns⟩
    have both : inner.args.length = 2 ∧ inner.First "str1" child ∧ inner.First "str2" parent := by
      rcases listed with listed | listed
      · refine ⟨by rw [listed]; rfl, ⟨[], _, listed, by simp⟩, ⟨[(some "str1", child)], _, listed, by simp⟩⟩
      · refine ⟨by rw [listed]; rfl, ⟨[(some "str2", parent)], _, listed, by simp⟩, ⟨[], _, listed, by simp⟩⟩
    refine ⟨fun other parsed => ?_, inner, child, parent, equal, both.2.1, both.2.2, columns⟩
    cases Option.some.inj (equal.1.symm.trans parsed)
    exact both.1
  · rintro ⟨paired, inner, child, parent, equal, first, second, columns⟩
    obtain ⟨one, two, listed⟩ := List.length_eq_two.mp (paired inner equal.1)
    refine ⟨inner, child, parent, equal, ?_, columns⟩
    have left := firstMember first
    have right := firstMember second
    have apart : (some "str2", parent) ≠ (some "str1", child) := by simp
    simp only [listed, List.mem_cons, List.not_mem_nil, or_false] at left right
    rcases left with rfl | rfl
    · rcases right with same | rfl
      · exact absurd same apart
      · exact .inl listed
    · rcases right with rfl | same
      · exact .inr listed
      · exact absurd same apart

theorem keysSaid {arguments : List String} {keys : List JoinKey} : List.Forall₂ SaysKey arguments keys ↔
    (∀ argument ∈ arguments, ∀ inner, InlineCall.parse argument = some inner → inner.args.length = 2) ∧
      List.Forall₂ TakesKey arguments keys := by
  rw [← List.forall₂_and_left]
  exact ⟨List.Forall₂.imp fun _ _ => keySaid.mp, List.Forall₂.imp fun _ _ => keySaid.mpr⟩

theorem nameSaid {mapping : String} {asserted : Bool} :
    keyedArgs call = [(some (quotedKeyword asserted).canonical, mapping)] ↔
      (call.First (quotedKeyword asserted).canonical mapping ∧ call.Lacks (quotedKeyword !asserted).canonical) ∧
        (keyedArgs call).length = 1 := by
  constructor
  · intro named
    obtain ⟨before, after, split, unkeyed, -, rest⟩ := List.filter_eq_cons_iff.mp named
    -- Around the only argument with a key there are none, so it is the first and the other name is nowhere.
    have others : ∀ arg ∈ before ++ after, ∀ key, arg.1 ≠ some key := by
      intro arg mem key same
      rcases List.mem_append.mp mem with inside | inside
      · exact unkeyed arg inside (by simp [same])
      · exact List.filter_eq_nil_iff.mp rest arg inside (by simp [same])
    refine ⟨⟨⟨before, after, split, fun arg mem => others arg (List.mem_append_left _ mem) _⟩, ?_⟩, by rw [named]; rfl⟩
    intro arg mem
    rw [split, List.mem_append, List.mem_cons] at mem
    rcases mem with inside | rfl | inside
    · exact others arg (List.mem_append_left _ inside) _
    · cases asserted <;> simp [quotedKeyword, Keyword.quoted, Keyword.quotedNonAsserted]
    · exact others arg (List.mem_append_right _ inside) _
  · rintro ⟨⟨first, -⟩, once⟩
    obtain ⟨only, listed⟩ := List.length_eq_one_iff.mp once
    have member : (some (quotedKeyword asserted).canonical, mapping) ∈ keyedArgs call :=
      List.mem_filter.mpr ⟨firstMember first, rfl⟩
    rw [listed] at member ⊢
    rw [List.mem_singleton.mp member]

theorem callSaid : SaysJoin call quoted ↔ TakesJoin call quoted ∧ NothingBeside call := by
  constructor
  · rintro ⟨named, ⟨keys, each, made⟩, whole⟩
    obtain ⟨⟨first, other⟩, once⟩ := nameSaid.mp named
    obtain ⟨paired, taken⟩ := keysSaid.mp each
    exact ⟨⟨first, other, ⟨keys, taken, made⟩, whole⟩, once, paired⟩
  · rintro ⟨⟨first, other, ⟨keys, taken, made⟩, whole⟩, once, paired⟩
    exact ⟨nameSaid.mpr ⟨⟨first, other⟩, once⟩, ⟨keys, keysSaid.mpr ⟨paired, taken⟩, made⟩, whole⟩

end

/-- A `join` call is read as the reference that it is taken for, and every other call is refused. A call that says a
reference is read as it; all others that are read have a second key or an `equal` call without exactly two arguments. -/
theorem joinTakesFirst (owner : String) (call : InlineCall) (quoted : QuotedRef) :
    (joinCall owner call = .ok quoted ↔ TakesJoin call quoted) ∧
      (SaysJoin call quoted ↔ joinCall owner call = .ok quoted ∧ NothingBeside call) :=
  ⟨callTaken, by rw [callTaken, callSaid]⟩

def repeatedName : InlineCall :=
  ⟨"join", [(some "quoted", "person"), (some "quoted", "company"), (none, "equal(str1=$(id), str2=$(id))")]⟩

def unknownKey : InlineCall :=
  ⟨"join", [(some "quoted", "person"), (some "graph", "http://example.org/g"), (none, "equal(str1=$(id), str2=$(id))")]⟩

def thirdArgument : InlineCall :=
  ⟨"join", [(some "quoted", "person"), (none, "equal(str1=$(id), str2=$(id), str3=$(name))")]⟩

theorem dropsArguments : InlineCall.parse "join(quoted=person, quoted=company, equal(str1=$(id), str2=$(id)))" =
      some repeatedName ∧
    ∀ call ∈ [repeatedName, unknownKey, thirdArgument],
      joinCall "note" call = .ok ⟨"person", true, JoinCondition.ofKeys? [⟨"id", "id"⟩], .all⟩ ∧
        ∀ quoted, ¬ SaysJoin call quoted := by
  refine ⟨by decide, ?_⟩
  rw [List.forall_mem_cons, List.forall_mem_cons, List.forall_mem_singleton]
  refine ⟨⟨rfl, fun quoted said => ?_⟩, ⟨rfl, fun quoted said => ?_⟩, ⟨rfl, fun quoted said => ?_⟩⟩
  · exact absurd (callSaid.mp said).2.once (by decide)
  · exact absurd (callSaid.mp said).2.once (by decide)
  · have three := (callSaid.mp said).2.paired _ (List.mem_singleton.mpr rfl)
    exact absurd (three _ rfl) (by decide)

end TabularRdf.Document
