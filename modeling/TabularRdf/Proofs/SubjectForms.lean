import TabularRdf.Document.Subject
import TabularRdf.Proofs.Loading
import TabularRdf.Proofs.SortedKeys

/-! What reading keeps of references and subjects: every condition has keys in order, and the subjects of a
mapping are templates and functions, or the triples of another mapping and no template. -/
namespace TabularRdf.Mapping

structure SubjectSpec.Formed (spec : SubjectSpec) : Prop where
  apart : spec.quoted ≠ none → spec.templates = []
  some : spec.quoted = none → spec.templates ≠ [] ∨ spec.functions ≠ []
  keyed : ∀ q, spec.quoted = .some q → Keyed q.condition

def SubjectSpec.Allowed (spec : SubjectSpec) : Prop :=
  (spec.quoted ≠ none → spec.templates = []) ∧ (spec.quoted = none → spec.templates ≠ [] ∨ spec.functions ≠ [])

end TabularRdf.Mapping

namespace TabularRdf.Document
open Mapping Loading

variable {context : Context} {s : Section} {owner : String}

theorem conditionKeyed {value : Json} {condition : Option JoinCondition} {filter : QuoteFilter}
    (loaded : joinCondition context owner value = .ok (condition, filter)) : Keyed condition := by
  simp only [joinCondition, boundOk, pureOk] at loaded
  obtain ⟨items, _, same⟩ := loaded
  cases same
  exact madeKeyed _

theorem writtenKeyed {condition : Option JoinCondition} {filter : QuoteFilter}
    (loaded : conditionUnder context s = .ok (condition, filter)) : Keyed condition := by
  simp only [conditionUnder, boundOk] at loaded
  obtain ⟨written, _, loaded⟩ := loaded
  cases written with
  | none =>
    cases pureOk.mp loaded
    intro _ impossible
    contradiction
  | some value => exact conditionKeyed loaded

theorem quotedKeyed {q : QuotedRef} (loaded : quotedRef context s = .ok (some q)) :
    Keyed q.condition := by
  simp only [quotedRef, boundOk] at loaded
  obtain ⟨name, _, loaded⟩ := loaded
  cases name with
  | none => cases pureOk.mp loaded
  | some name =>
    simp only [boundOk, pureOk] at loaded
    obtain ⟨⟨condition, filter⟩, written, same⟩ := loaded
    cases same
    exact writtenKeyed written

theorem calledKeyed {call : InlineCall} {q : QuotedRef} (loaded : joinCall owner call = .ok q) :
    Keyed q.condition := by
  simp only [joinCall, boundOk, pureOk] at loaded
  obtain ⟨_, _, keys, _, rfl⟩ := loaded
  exact madeKeyed keys

def QuotedKeyed (spec : SubjectSpec) : Prop := ∀ q, spec.quoted = some q → Keyed q.condition

theorem setOk {before after : SubjectSpec} {q : QuotedRef} :
    setQuoted owner before q = .ok after ↔ before.quoted = none ∧ after = { before with quoted := some q } := by
  unfold setQuoted
  cases before.quoted <;> simp [eq_comm]

theorem quotedSet {before after : SubjectSpec} {q : QuotedRef} (keyed : Keyed q.condition)
    (set : setQuoted owner before q = .ok after) : QuotedKeyed after := by
  obtain ⟨_, rfl⟩ := setOk.mp set
  intro other same
  cases Option.some.inj same
  exact keyed

theorem entryAdds {before after : SubjectSpec} (added : subjectEntry context s before = .ok after) :
    ∃ graphs extended, context.templatesUnder s .graphs = .ok graphs ∧
      extended = { before with graphs := before.graphs ++ graphs } ∧
      (after = extended ∨
        (∃ text template, context.template text = .ok template ∧
          after = { extended with templates := extended.templates ++ [template] }) ∨
        (∃ expression, functionOf s.owner s.fields = .ok expression ∧
          after = { extended with functions := extended.functions ++ [expression] }) ∨
        ∃ q, ((∃ call, joinCall s.owner call = .ok q) ∨ quotedRef context s = .ok (some q)) ∧
          setQuoted s.owner extended q = .ok after) := by
  simp only [subjectEntry, addGraphs, boundOk, pureOk] at added
  obtain ⟨extended, ⟨graphs, written, rfl⟩, keyword, _, added⟩ := added
  refine ⟨graphs, _, written, rfl, ?_⟩
  cases keyword with
  | none =>
    obtain ⟨_, same⟩ := passedOk.mp added
    exact .inl (pureOk.mp same).symm
  | some keyword =>
    dsimp only at added
    split at added
    · obtain ⟨text, _, added⟩ := boundOk.mp added
      cases text with
      | none => exact .inl (pureOk.mp added).symm
      | some text =>
        obtain ⟨template, read, same⟩ := boundOk.mp added
        exact .inr (.inl ⟨text, template, read, (pureOk.mp same).symm⟩)
    · split at added
      · obtain ⟨function, _, added⟩ := boundOk.mp added
        split at added
        · obtain ⟨q, called, set⟩ := boundOk.mp added
          exact .inr (.inr (.inr ⟨q, .inl ⟨_, called⟩, set⟩))
        · obtain ⟨expression, read, same⟩ := boundOk.mp added
          exact .inr (.inr (.inl ⟨expression, read, (pureOk.mp same).symm⟩))
      · obtain ⟨quoted, read, added⟩ := boundOk.mp added
        cases quoted with
        | none => exact .inl (pureOk.mp added).symm
        | some q => exact .inr (.inr (.inr ⟨q, .inr read, added⟩))

theorem entryKeyed {before after : SubjectSpec} (keyed : QuotedKeyed before)
    (added : subjectEntry context s before = .ok after) : QuotedKeyed after := by
  obtain ⟨_, _, _, rfl, same | ⟨_, _, _, same⟩ | ⟨_, _, same⟩ | ⟨q, read, set⟩⟩ := entryAdds added
  · exact same ▸ keyed
  · exact same ▸ keyed
  · exact same ▸ keyed
  · rcases read with ⟨_, called⟩ | read
    · exact quotedSet (calledKeyed called) set
    · exact quotedSet (quotedKeyed read) set

theorem itemKeyed {before after : SubjectSpec} {item : Json} (keyed : QuotedKeyed before)
    (added : addSubject context owner before item = .ok after) : QuotedKeyed after := by
  unfold addSubject at added
  split at added
  · exact entryKeyed keyed added
  · simp only [boundOk, pureOk] at added
    obtain ⟨_, _, _, _, rfl⟩ := added
    exact keyed

theorem subjectsOk {spec : SubjectSpec} : parseSubjects context s = .ok spec ↔
    ∃ value, s.get? .subjects = .ok (some value) ∧
      (itemsOf value).foldlM (addSubject context s.owner) SubjectSpec.empty = .ok spec ∧ spec.Allowed := by
  have apart : ¬ (spec.quoted.isSome && !spec.templates.isEmpty) ↔ (spec.quoted ≠ none → spec.templates = []) := by
    cases spec.quoted <;> simp
  have some : ¬ (spec.quoted.isNone && spec.templates.isEmpty && spec.functions.isEmpty) ↔
      (spec.quoted = none → spec.templates ≠ [] ∨ spec.functions ≠ []) := by
    cases spec.quoted <;> simp [imp_iff_not_or]
  constructor
  · intro loaded
    simp only [parseSubjects, boundOk] at loaded
    obtain ⟨written, got, loaded⟩ := loaded
    cases written with
    | none => cases loaded
    | some value =>
      obtain ⟨_, folded, loaded⟩ := boundOk.mp loaded
      obtain ⟨first, loaded⟩ := passedOk.mp loaded
      obtain ⟨second, same⟩ := passedOk.mp loaded
      cases pureOk.mp same
      exact ⟨value, got, folded, apart.mp first, some.mp second⟩
  · rintro ⟨value, got, folded, first, second⟩
    refine boundOk.mpr ⟨_, got, boundOk.mpr ⟨spec, folded, ?_⟩⟩
    exact passedOk.mpr ⟨apart.mpr first, passedOk.mpr ⟨some.mpr second, rfl⟩⟩

theorem subjectsFormed {spec : SubjectSpec} (loaded : parseSubjects context s = .ok spec) :
    spec.Formed := by
  obtain ⟨_, _, folded, apart, some⟩ := subjectsOk.mp loaded
  refine ⟨apart, some, foldedKeeps folded (P := QuotedKeyed) ?_ fun _ _ _ _ => itemKeyed⟩
  intro q impossible
  contradiction

end TabularRdf.Document
