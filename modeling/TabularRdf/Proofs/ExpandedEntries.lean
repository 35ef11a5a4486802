import TabularRdf.Proofs.EntryForms

/-! What an entry is expanded to: every predicate with every object, by predicate first, or the reason why one of
these pairs cannot be. -/
namespace TabularRdf.Mapping

def ObjectSpec.Resource (object : ObjectSpec) : Prop :=
  (∃ t, object = .term t ∧ t.kind = .iri) ∨ (∃ r, object = .reference r) ∨ ∃ q, object = .quoted q

theorem resourceExactly {object : ObjectSpec} : object.isResource ↔ object.Resource := by
  cases object <;> simp [ObjectSpec.isResource, ObjectSpec.Resource]

end TabularRdf.Mapping

namespace TabularRdf.Document
open Mapping Loading

def EntryObject.Under (predicate : Predicate) (given : ObjectSpec) : EntryObject → Prop
  | .term template kind datatype language => ∃ chosen, given = .term ⟨template, chosen, datatype, language⟩ ∧
      (∀ written, kind = some written → chosen = written) ∧
      (kind = none → (chosen = .iri ↔ predicate.isType ∧ datatype = none ∧ language = none))
  | .other object => given = object

theorem underOnly {predicate : Predicate} {given : ObjectSpec} {object : EntryObject} :
    object.Under predicate given ↔ given = object.forPredicate predicate := by
  cases object with
  | other object => rfl
  | term template kind datatype language =>
    have implied : EntryObject.implicitKind predicate datatype language = .iri ↔
        predicate.isType ∧ datatype = none ∧ language = none := by
      simp [EntryObject.implicitKind, and_assoc]
    cases kind with
    | some written => simp [EntryObject.Under, EntryObject.forPredicate]
    | none =>
      have chosen (kind : TermKind) : (kind = .iri ↔ predicate.isType ∧ datatype = none ∧ language = none) ↔
          kind = EntryObject.implicitKind predicate datatype language := by
        rw [← implied]
        cases kind <;> cases EntryObject.implicitKind predicate datatype language <;> simp
      simp [EntryObject.Under, EntryObject.forPredicate, chosen]

namespace Entry

def Miscounted (entry : Entry) : Prop :=
  1 < entry.inverse.length ∧ entry.inverse.length ≠ entry.predicates.length

def Irreversible (entry : Entry) : Prop :=
  0 < entry.inverse.length ∧ ∃ predicate ∈ entry.predicates, ∃ object ∈ entry.objects,
    ∃ given, object.Under predicate given ∧ ¬ given.Resource

structure Pairs (entry : Entry) (i : Nat) (predicate : Predicate) (object : EntryObject)
    (pair : PredicateObject) : Prop where
  named : pair.predicate = predicate.template
  given : object.Under predicate pair.object
  graphs : pair.graphs = entry.graphs
  condition : pair.condition = entry.condition
  plain : entry.inverse.length = 0 → pair.inverse = none
  single : entry.inverse.length = 1 → ∃ inverse, entry.inverse = [inverse] ∧ pair.inverse = some inverse
  matched : 1 < entry.inverse.length → ∃ inverse, entry.inverse[i]? = some inverse ∧ pair.inverse = some inverse

structure Expanded (entry : Entry) (pairs : List PredicateObject) : Prop where
  count : pairs.length = entry.predicates.length * entry.objects.length
  placed : ∀ i predicate, entry.predicates[i]? = some predicate → ∀ j object, entry.objects[j]? = some object →
    ∃ pair, pairs[i * entry.objects.length + j]? = some pair ∧ entry.Pairs i predicate object pair

variable {entry : Entry} {owner : String} {predicate : Predicate} {object : EntryObject}

theorem pairGiven {inverse : Option Template} {pair : PredicateObject}
    (given : entry.pair owner predicate inverse object = .ok pair) :
    pair = ⟨predicate.template, object.forPredicate predicate, inverse, entry.graphs, entry.condition⟩ ∧
      (inverse.isSome → (object.forPredicate predicate).Resource) := by
  simp only [Entry.pair] at given
  split at given
  · contradiction
  · rename_i allowed
    refine ⟨(Except.ok.inj given).symm, fun inverted => resourceExactly.mp ?_⟩
    simpa [inverted] using allowed

theorem pairRefused {inverse : Option Template} {error : MappingError}
    (refused : entry.pair owner predicate inverse object = .error error) :
    error = .validation owner .inverseOfLiteral ∧ inverse.isSome ∧ ¬ (object.forPredicate predicate).Resource := by
  simp only [Entry.pair] at refused
  split at refused
  · rename_i barred
    refine ⟨(Except.error.inj refused).symm, ?_⟩
    rw [← resourceExactly]
    simpa using barred
  · contradiction

theorem inversePlaced (counted : ¬ entry.Miscounted) {i : Nat} (inside : i < entry.predicates.length) :
    (entry.inverse.length = 0 → entry.inverseAt i = none) ∧
      (entry.inverse.length = 1 → ∃ inverse, entry.inverse = [inverse] ∧ entry.inverseAt i = some inverse) ∧
      (1 < entry.inverse.length → ∃ inverse, entry.inverse[i]? = some inverse ∧ entry.inverseAt i = some inverse) := by
  unfold inverseAt
  rcases same : entry.inverse with _ | ⟨first, _ | ⟨second, rest⟩⟩
  · simp
  · simp
  · have bound : i < (first :: second :: rest).length := by
      rw [← same]
      have several : 1 < entry.inverse.length := by simp [same]
      unfold Miscounted at counted
      omega
    refine ⟨nofun, by simp, fun _ => ⟨_, List.getElem?_eq_getElem bound, List.getElem?_eq_getElem bound⟩⟩

theorem inverseSome (counted : ¬ entry.Miscounted) {i : Nat} (inside : i < entry.predicates.length) :
    (entry.inverseAt i).isSome ↔ 0 < entry.inverse.length := by
  obtain ⟨none, single, several⟩ := inversePlaced counted inside
  rcases Nat.lt_trichotomy entry.inverse.length 1 with few | one | many
  · rw [none (by omega)]
    simpa using few
  · obtain ⟨_, _, same⟩ := single one
    simp [same, one]
  · obtain ⟨_, _, same⟩ := several many
    simp [same]
    omega

theorem flattenedAt {α : Type} {n : Nat} {rows : List (List α)} (even : ∀ row ∈ rows, row.length = n) (i : Nat)
    {j : Nat} (inside : j < n) : rows.flatten[i * n + j]? = rows[i]?.bind fun row => row[j]? := by
  induction rows generalizing i with
  | nil => rfl
  | cons row rest ih =>
    obtain ⟨here, later⟩ := List.forall_mem_cons.mp even
    rw [List.flatten_cons]
    cases i with
    | zero =>
      rw [Nat.zero_mul, Nat.zero_add, List.getElem?_append_left (here ▸ inside)]
      rfl
    | succ i =>
      have after : (i + 1) * n + j = row.length + (i * n + j) := by rw [here, Nat.succ_mul]; omega
      rw [after, List.getElem?_append_right (Nat.le_add_right _ _), Nat.add_sub_cancel_left, ih later]
      rfl

theorem flattenedCount {α : Type} {n : Nat} {rows : List (List α)} (even : ∀ row ∈ rows, row.length = n) :
    rows.flatten.length = rows.length * n := by
  rw [List.length_flatten, List.map_congr_left even, List.map_const', List.sum_replicate_nat]

section

variable {pairs : List PredicateObject}

theorem expandedRows (expanded : entry.expand owner = .ok pairs) :
    ¬ entry.Miscounted ∧ ∃ rows, pairs = rows.flatten ∧ List.Forall₂ (fun placed row =>
      entry.objects.mapM (entry.pair owner placed.1 (entry.inverseAt placed.2)) = .ok row)
      entry.predicates.zipIdx rows := by
  simp only [Entry.expand] at expanded
  obtain ⟨counted, expanded⟩ := passedOk.mp expanded
  simp only [boundOk, pureOk] at expanded
  obtain ⟨rows, mapped, rfl⟩ := expanded
  exact ⟨by simpa [Miscounted] using counted, rows, rfl, mappedOk.mp mapped⟩

theorem rowPlaced {rows : List (List PredicateObject)} (each : List.Forall₂ (fun placed row =>
      entry.objects.mapM (entry.pair owner placed.1 (entry.inverseAt placed.2)) = .ok row)
      entry.predicates.zipIdx rows) {i : Nat} (here : entry.predicates[i]? = some predicate) :
    ∃ row, rows[i]? = some row ∧ List.Forall₂ (fun object pair =>
      entry.pair owner predicate (entry.inverseAt i) object = .ok pair) entry.objects row := by
  have placed : entry.predicates.zipIdx[i]? = some (predicate, i) := by simp [here]
  obtain ⟨row, found, given⟩ := pairedAt each placed
  exact ⟨row, found, mappedOk.mp given⟩

theorem expandedWhole (expanded : entry.expand owner = .ok pairs) :
    ¬ entry.Miscounted ∧ ¬ entry.Irreversible ∧ entry.Expanded pairs := by
  obtain ⟨counted, rows, rfl, each⟩ := expandedRows expanded
  have even : ∀ row ∈ rows, row.length = entry.objects.length := by
    intro row mem
    obtain ⟨_, _, given⟩ := pairedOrigin each mem
    exact (mappedOk.mp given).length_eq.symm
  refine ⟨counted, ?_, ⟨?_, ?_⟩⟩
  · rintro ⟨inverted, predicate, first, object, second, given, under, resourceless⟩
    obtain ⟨i, here⟩ := List.mem_iff_getElem?.mp first
    obtain ⟨row, _, paired⟩ := rowPlaced each here
    obtain ⟨pair, _, made⟩ := pairedImage paired second
    have some := (inverseSome counted (List.getElem?_eq_some_iff.mp here).1).mpr inverted
    exact resourceless (underOnly.mp under ▸ (pairGiven made).2 some)
  · rw [flattenedCount even, ← each.length_eq, List.length_zipIdx]
  · intro i predicate here j object there
    obtain ⟨row, found, paired⟩ := rowPlaced each here
    obtain ⟨pair, listed, made⟩ := pairedAt paired there
    refine ⟨pair, ?_, ?_⟩
    · rw [flattenedAt even i (List.getElem?_eq_some_iff.mp there).1, found]
      exact listed
    · obtain ⟨rfl, _⟩ := pairGiven made
      obtain ⟨plain, single, matched⟩ := inversePlaced counted (List.getElem?_eq_some_iff.mp here).1
      exact ⟨rfl, underOnly.mpr rfl, rfl, rfl, plain, single, matched⟩

theorem expandedMiscounted (miscounted : entry.Miscounted) : entry.expand owner =
    .error (.validation owner (.inverseCount entry.inverse.length entry.predicates.length)) := by
  rw [expand, if_pos (by simpa [Miscounted] using miscounted)]
  rfl

theorem expandedRefused (counted : ¬ entry.Miscounted) {error : MappingError}
    (failed : entry.expand owner = .error error) :
    entry.Irreversible ∧ error = .validation owner .inverseOfLiteral := by
  rw [expand, if_neg (by simpa [Miscounted] using counted)] at failed
  rcases boundFailed.mp failed with refused | ⟨_, _, impossible⟩
  · obtain ⟨⟨predicate, i⟩, placed, refused⟩ := mappedFailure refused
    obtain ⟨object, listed, refused⟩ := mappedFailure refused
    obtain ⟨cause, inverted, resourceless⟩ := pairRefused refused
    have inside : i < entry.predicates.length := by simpa using (List.mem_zipIdx placed).2.1
    exact ⟨⟨(inverseSome counted inside).mp inverted, predicate, List.fst_mem_of_mem_zipIdx placed, object, listed,
      _, underOnly.mpr rfl, resourceless⟩, cause⟩
  · cases impossible

end

end Entry

def Context.NamesClass (context : Context) (text : String) : Prop :=
  text = "a" ∨ ∃ template written, context.template text = .ok template ∧ template.constant? = some written ∧
    context.resolver.expand written = .ok Rdf.Vocabulary.rdfType

theorem classPredicate {context : Context} {text : String} {predicate : Predicate}
    (read : parsePredicate context text = .ok predicate) : predicate.isType ↔ context.NamesClass text := by
  unfold parsePredicate at read
  split at read
  · rename_i type
    cases Except.ok.inj read
    exact iff_of_true rfl (.inl type)
  · rename_i other
    simp only [boundOk, pureOk] at read
    obtain ⟨template, parsed, rfl⟩ := read
    simp only [Context.NamesClass, other, false_or, parsed, Except.ok.injEq, decide_eq_true_eq,
      Option.bind_eq_some_iff, optionOk]
    simp

/-- An entry is expanded to every predicate with every object, each pair at its place and with the inverse predicate
of its predicate, or refused for its inverse predicates. The predicates that make IRIs of open terms are those that
name the class predicate. -/
theorem expandsToProduct (owner : String) (entry : Entry) :
    (entry.Miscounted ∧ entry.expand owner =
        .error (.validation owner (.inverseCount entry.inverse.length entry.predicates.length)) ∨
      ¬ entry.Miscounted ∧ entry.Irreversible ∧
        entry.expand owner = .error (.validation owner .inverseOfLiteral) ∨
      ¬ entry.Miscounted ∧ ¬ entry.Irreversible ∧ ∃ pairs, entry.expand owner = .ok pairs ∧ entry.Expanded pairs) ∧
    ∀ (context : Context) (text : String) (predicate : Predicate),
      parsePredicate context text = .ok predicate → (predicate.isType ↔ context.NamesClass text) := by
  refine ⟨?_, fun _ _ _ => classPredicate⟩
  by_cases miscounted : entry.Miscounted
  · exact .inl ⟨miscounted, Entry.expandedMiscounted miscounted⟩
  · cases done : entry.expand owner with
    | ok pairs =>
      obtain ⟨_, fit, expanded⟩ := Entry.expandedWhole done
      exact .inr (.inr ⟨miscounted, fit, pairs, rfl, expanded⟩)
    | error error =>
      obtain ⟨irreversible, rfl⟩ := Entry.expandedRefused miscounted done
      exact .inr (.inl ⟨miscounted, irreversible, rfl⟩)

def kindContext : Context := ⟨[], [], [], ⟨Rdf.Vocabulary.standard, none, .percent⟩⟩

def kindEntry : Entry :=
  ⟨[⟨⟨"rdf:type", [.text "rdf:type"]⟩, true⟩, ⟨⟨"rdfs:label", [.text "rdfs:label"]⟩, false⟩],
    [.term ⟨"$(kind)", [.column "kind"]⟩ none none none, .term ⟨"$(label)", [.column "label"]⟩ none none none],
    [], [], none⟩

theorem kindsExpanded : ∃ predicate, parsePredicate kindContext "rdf:type" = .ok predicate ∧
    kindContext.NamesClass "rdf:type" ∧ kindEntry.predicates[0]? = some predicate ∧
    ∃ pairs first second, kindEntry.expand "thing" = .ok pairs ∧ pairs.length = 4 ∧
      pairs[0]? = some first ∧ first.object = .term ⟨⟨"$(kind)", [.column "kind"]⟩, .iri, none, none⟩ ∧
      pairs[2]? = some second ∧ second.object = .term ⟨⟨"$(kind)", [.column "kind"]⟩, .literal, none, none⟩ := by
  obtain ⟨cases, classes⟩ := expandsToProduct "thing" kindEntry
  have read : parsePredicate kindContext "rdf:type" = .ok ⟨⟨"rdf:type", [.text "rdf:type"]⟩, true⟩ := by decide +kernel
  refine ⟨_, read, (classes _ _ _ read).mp rfl, rfl, ?_⟩
  rcases cases with ⟨⟨many, _⟩, _⟩ | ⟨_, ⟨inverted, _⟩, _⟩ | ⟨_, _, pairs, expanded, whole⟩
  · exact absurd many (by decide)
  · exact absurd inverted (by decide)
  · obtain ⟨first, here, one⟩ := whole.placed 0 _ rfl 0 _ rfl
    obtain ⟨second, there, two⟩ := whole.placed 1 _ rfl 0 _ rfl
    exact ⟨pairs, first, second, expanded, whole.count, here, underOnly.mp one.given, there, underOnly.mp two.given⟩

end TabularRdf.Document
