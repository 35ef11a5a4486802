import Mathlib.Data.List.Perm.Basic
import TabularRdf.Proofs.SeparateSubjects

/-! Lists of subjects in another order. An entry adds what it gives alone, wherever it stands; only an entry with
neither a subject nor a graph depends on those before it. Such a vacant entry needs an entry with graphs before
it. -/
namespace TabularRdf.Mapping

structure SubjectLists where
  templates : List Template
  quoted : List QuotedRef
  graphs : List Template
  functions : List Expression

namespace SubjectLists

def empty : SubjectLists := ⟨[], [], [], []⟩

def append (a b : SubjectLists) : SubjectLists :=
  ⟨a.templates ++ b.templates, a.quoted ++ b.quoted, a.graphs ++ b.graphs, a.functions ++ b.functions⟩

theorem appendAssoc (a b c : SubjectLists) : (a.append b).append c = a.append (b.append c) := by
  simp only [append, List.append_assoc]

theorem appendEmpty (a : SubjectLists) : a.append empty = a := by
  simp only [append, empty, List.append_nil]

end SubjectLists

namespace SubjectSpec

def lists (spec : SubjectSpec) : SubjectLists := ⟨spec.templates, spec.quoted.toList, spec.graphs, spec.functions⟩

theorem listsUnique {a b : SubjectSpec} (same : a.lists = b.lists) : a = b := by
  obtain ⟨templates, quoted, graphs, functions⟩ := a
  obtain ⟨_, other, _, _⟩ := b
  simp only [lists, SubjectLists.mk.injEq] at same
  obtain ⟨rfl, quotes, rfl, rfl⟩ := same
  cases quoted <;> cases other <;> simp_all

theorem listsGiven {all : SubjectLists} : (∃ spec : SubjectSpec, spec.lists = all) ↔ all.quoted.length ≤ 1 := by
  constructor
  · rintro ⟨⟨_, quoted, _, _⟩, rfl⟩
    cases quoted <;> simp [lists]
  · intro once
    obtain ⟨templates, quoted, graphs, functions⟩ := all
    refine ⟨⟨templates, quoted.head?, graphs, functions⟩, ?_⟩
    have same : quoted.head?.toList = quoted := by
      rcases quoted with _ | ⟨q, _ | ⟨_, _⟩⟩
      · rfl
      · rfl
      · simp at once
    rw [lists, same]

theorem partsGiven {spec : SubjectSpec} {a b c : SubjectLists} (whole : spec.lists = a.append (b.append c)) :
    (∃ part : SubjectSpec, part.lists = a.append b) ∧ ∃ part : SubjectSpec, part.lists = b.append c := by
  have once := listsGiven.mp ⟨spec, whole⟩
  simp only [listsGiven, SubjectLists.append, List.length_append] at once ⊢
  omega

end SubjectSpec

end TabularRdf.Mapping

namespace TabularRdf.Document
open Mapping Loading

def Additive (step : SubjectSpec → Except MappingError SubjectSpec) : Prop :=
  ∀ before after, step before = .ok after ↔
    ∃ part, step SubjectSpec.empty = .ok part ∧ after.lists = before.lists.append part.lists

section

variable {α : Type} {owner : String} {first second : SubjectSpec → Except MappingError SubjectSpec}

theorem additiveFailing (e : MappingError) : Additive fun _ => .error e :=
  fun _ _ => iff_of_false nofun nofun

theorem additiveTotal {step : SubjectSpec → SubjectSpec}
    (adds : ∀ before, (step before).lists = before.lists.append (step SubjectSpec.empty).lists) :
    Additive fun before => .ok (step before) := by
  intro before after
  constructor
  · rintro ⟨⟩
    exact ⟨_, rfl, adds before⟩
  · rintro ⟨_, ⟨⟩, same⟩
    rw [SubjectSpec.listsUnique (same.trans (adds before).symm)]

theorem additiveRead {read : Except MappingError α} {step : α → SubjectSpec → Except MappingError SubjectSpec}
    (each : ∀ a, read = .ok a → Additive (step a)) : Additive fun before => read >>= fun a => step a before := by
  cases read with
  | error e => exact additiveFailing e
  | ok a => exact each a rfl

theorem additiveThen (one : Additive first) (two : Additive second) :
    Additive fun before => first before >>= second := by
  intro before after
  constructor
  · intro both
    obtain ⟨between, start, rest⟩ := boundOk.mp both
    obtain ⟨part, alone, early⟩ := (one before between).mp start
    obtain ⟨more, other, late⟩ := (two between after).mp rest
    rw [early, SubjectLists.appendAssoc] at late
    obtain ⟨_, sum, added⟩ := SubjectSpec.partsGiven late
    exact ⟨sum, boundOk.mpr ⟨part, alone, (two part sum).mpr ⟨more, other, added⟩⟩, added ▸ late⟩
  · rintro ⟨sum, both, whole⟩
    obtain ⟨part, alone, rest⟩ := boundOk.mp both
    obtain ⟨more, other, added⟩ := (two part sum).mp rest
    rw [added] at whole
    obtain ⟨⟨between, early⟩, _⟩ := SubjectSpec.partsGiven whole
    rw [← SubjectLists.appendAssoc] at whole
    exact boundOk.mpr ⟨between, (one before between).mpr ⟨part, alone, early⟩,
      (two between after).mpr ⟨more, other, early ▸ whole⟩⟩

theorem additiveQuoted (q : QuotedRef) : Additive fun before => setQuoted owner before q := by
  intro before after
  simp only [setOk]
  constructor
  · rintro ⟨unquoted, rfl⟩
    refine ⟨_, ⟨rfl, rfl⟩, ?_⟩
    simp [SubjectSpec.lists, SubjectLists.append, SubjectSpec.empty, unquoted]
  · rintro ⟨_, ⟨_, rfl⟩, whole⟩
    have once := SubjectSpec.listsGiven.mp ⟨after, whole⟩
    have unquoted : before.quoted = none := by
      cases given : before.quoted with
      | none => rfl
      | some _ => simp [SubjectLists.append, SubjectSpec.lists, given] at once
    refine ⟨unquoted, SubjectSpec.listsUnique (whole.trans ?_)⟩
    simp [SubjectSpec.lists, SubjectLists.append, SubjectSpec.empty, unquoted]

end

variable {context : Context} {owner : String} {s : Section}

theorem templateAdditive (template : Template) :
    Additive fun before => .ok { before with templates := before.templates ++ [template] } :=
  additiveTotal fun _ => by simp [SubjectSpec.lists, SubjectLists.append, SubjectSpec.empty]

theorem graphsAdditive : Additive (addGraphs context s) :=
  additiveRead fun _ _ => additiveTotal fun _ => by simp [SubjectSpec.lists, SubjectLists.append, SubjectSpec.empty]

theorem sameAdditive : Additive fun before => .ok before :=
  additiveTotal fun _ => by simp [SubjectSpec.lists, SubjectLists.append, SubjectSpec.empty]

def subjectKinds : List Keyword := [.value, .quoted, .quotedNonAsserted, .function]

theorem kindAdditive (kind : s.exclusive subjectKinds ≠ .ok none) : Additive (subjectEntry context s) := by
  refine additiveThen graphsAdditive (additiveRead fun keyword only => ?_)
  cases keyword with
  | none => exact absurd only kind
  | some keyword =>
    dsimp only
    split
    · refine additiveRead fun text _ => ?_
      cases text with
      | none => exact sameAdditive
      | some text => exact additiveRead fun template _ => templateAdditive template
    · split
      · refine additiveRead fun function _ => ?_
        split
        · exact additiveRead fun q _ => additiveQuoted q
        · refine additiveRead fun expression _ => additiveTotal fun _ => ?_
          simp [SubjectSpec.lists, SubjectLists.append, SubjectSpec.empty]
      · refine additiveRead fun quoted _ => ?_
        cases quoted with
        | none => exact sameAdditive
        | some q => exact additiveQuoted q

theorem kindlessAdds (kindless : s.exclusive subjectKinds = .ok none) {before after : SubjectSpec} :
    subjectEntry context s before = .ok after ↔ ∃ graphs, context.templatesUnder s .graphs = .ok graphs ∧
      before.graphs ++ graphs ≠ [] ∧ after = { before with graphs := before.graphs ++ graphs } := by
  constructor
  · intro added
    simp only [subjectEntry, addGraphs, boundOk, pureOk] at added
    obtain ⟨_, ⟨graphs, read, rfl⟩, _, found, added⟩ := added
    cases Except.ok.inj (found.symm.trans kindless)
    obtain ⟨some, same⟩ := passedOk.mp added
    exact ⟨graphs, read, by simpa using some, (pureOk.mp same).symm⟩
  · rintro ⟨graphs, read, some, rfl⟩
    refine boundOk.mpr ⟨_, boundOk.mpr ⟨graphs, read, rfl⟩, boundOk.mpr ⟨none, kindless, ?_⟩⟩
    exact passedOk.mpr ⟨by simpa using some, rfl⟩

variable (context owner)

def Vacant : Json → Prop
  | .obj fields => Section.exclusive ⟨owner, fields⟩ subjectKinds = .ok none ∧
      context.templatesUnder ⟨owner, fields⟩ .graphs = .ok []
  | _ => False

def Graphed : Json → Prop
  | .obj fields => ∃ graph rest, context.templatesUnder ⟨owner, fields⟩ .graphs = .ok (graph :: rest)
  | _ => False

def Led (items : List Json) : Prop :=
  ∀ before item after, items = before ++ item :: after → Vacant context owner item →
    ∃ earlier ∈ before, Graphed context owner earlier

def share (item : Json) : SubjectLists :=
  ((addSubject context owner SubjectSpec.empty item).toOption.map SubjectSpec.lists).getD .empty

def shares (items : List Json) : SubjectLists :=
  ⟨items.flatMap fun item => (share context owner item).templates,
    items.flatMap fun item => (share context owner item).quoted,
    items.flatMap fun item => (share context owner item).graphs,
    items.flatMap fun item => (share context owner item).functions⟩

variable {context owner} {item : Json} {items : List Json}

theorem itemAdditive (filled : ¬ Vacant context owner item) :
    Additive fun before => addSubject context owner before item := by
  cases item with
  | obj fields =>
    by_cases kindless : Section.exclusive ⟨owner, fields⟩ subjectKinds = .ok none
    · intro before after
      simp only [addSubject, kindlessAdds kindless]
      constructor
      · rintro ⟨graphs, read, _, rfl⟩
        have some : graphs ≠ [] := fun none => filled ⟨kindless, none ▸ read⟩
        refine ⟨_, ⟨graphs, read, some, rfl⟩, ?_⟩
        simp [SubjectSpec.lists, SubjectLists.append, SubjectSpec.empty]
      · rintro ⟨_, ⟨graphs, read, some, rfl⟩, whole⟩
        refine ⟨graphs, read, List.append_ne_nil_of_right_ne_nil _ some, SubjectSpec.listsUnique (whole.trans ?_)⟩
        simp [SubjectSpec.lists, SubjectLists.append, SubjectSpec.empty]
    · exact kindAdditive kindless
  | _ => exact additiveRead fun _ _ => additiveRead fun template _ => templateAdditive template

theorem shareRead {part : SubjectSpec} (alone : addSubject context owner SubjectSpec.empty item = .ok part) :
    share context owner item = part.lists := by
  rw [share, alone]
  rfl

theorem vacantAdds (vacant : Vacant context owner item) {before after : SubjectSpec} :
    addSubject context owner before item = .ok after ↔ before.graphs ≠ [] ∧ after = before := by
  cases item with
  | obj fields =>
    obtain ⟨kindless, none⟩ := vacant
    simp only [addSubject, kindlessAdds kindless, none, Except.ok.injEq, exists_eq_left', List.append_nil]
  | _ => exact vacant.elim

theorem graphsGiven {part : SubjectSpec} (read : addSubject context owner SubjectSpec.empty item = .ok part) :
    part.graphs ≠ [] ↔ Graphed context owner item := by
  cases item with
  | obj fields =>
    obtain ⟨graphs, _, levels, rfl, rest⟩ := entryAdds read
    have own : part.graphs = graphs := by
      rcases rest with rfl | ⟨_, _, _, rfl⟩ | ⟨_, _, rfl⟩ | ⟨_, _, set⟩
      · rfl
      · rfl
      · rfl
      · obtain ⟨_, rfl⟩ := setOk.mp set
        rfl
    simp only [Graphed, levels, own, Except.ok.injEq, List.ne_nil_iff_exists_cons]
  | _ =>
    simp only [addSubject, boundOk, pureOk] at read
    obtain ⟨_, _, _, _, rfl⟩ := read
    exact iff_of_false (fun some => some rfl) id

theorem ledCons : Led context owner (item :: items) ↔
    ¬ Vacant context owner item ∧ (Graphed context owner item ∨ Led context owner items) := by
  constructor
  · intro led
    refine ⟨fun vacant => ?_, or_iff_not_imp_left.mpr fun bare before other after same vacant => ?_⟩
    · obtain ⟨_, impossible, _⟩ := led [] item items rfl vacant
      exact List.not_mem_nil impossible
    · obtain ⟨earlier, listed, graphed⟩ := led (item :: before) other after (congrArg (item :: ·) same) vacant
      rcases List.mem_cons.mp listed with rfl | there
      · exact absurd graphed bare
      · exact ⟨earlier, there, graphed⟩
  · rintro ⟨filled, either⟩ before other after same vacant
    rcases List.cons_eq_append_iff.mp same with ⟨rfl, rest⟩ | ⟨others, rfl, rest⟩
    · cases rest
      exact absurd vacant filled
    · rcases either with graphed | led
      · exact ⟨item, List.mem_cons_self, graphed⟩
      · obtain ⟨earlier, listed, graphed⟩ := led others other after rest vacant
        exact ⟨earlier, List.mem_cons_of_mem _ listed, graphed⟩

/- A list of entries is read when each one is vacant or can stand alone and the vacant ones are led, and then it gives
what the entries give alone. -/
theorem foldedShares {before last : SubjectSpec} : items.foldlM (addSubject context owner) before = .ok last ↔
    (before.graphs ≠ [] ∨ Led context owner items) ∧
    (∀ item ∈ items, Vacant context owner item ∨
      ∃ part, addSubject context owner SubjectSpec.empty item = .ok part) ∧
    last.lists = before.lists.append (shares context owner items) := by
  induction items generalizing before with
  | nil =>
    have led : Led context owner [] := fun _ _ _ same => absurd same (by simp)
    have none : before.lists.append (shares context owner []) = before.lists := SubjectLists.appendEmpty _
    simp only [List.foldlM_nil, pureOk, led, or_true, none, List.not_mem_nil, false_imp_iff, implies_true, true_and]
    exact ⟨fun same => same ▸ rfl, fun same => (SubjectSpec.listsUnique same).symm⟩
  | cons item rest ih =>
    have whole : shares context owner (item :: rest) =
        (share context owner item).append (shares context owner rest) := rfl
    rw [List.foldlM_cons, boundOk, ledCons, List.forall_mem_cons, whole]
    by_cases vacant : Vacant context owner item
    · have nothing : share context owner item = .empty := by
        cases read : addSubject context owner SubjectSpec.empty item with
        | error e => rw [share, read]; rfl
        | ok part => exact absurd rfl ((vacantAdds vacant).mp read).1
      have same : SubjectLists.append .empty (shares context owner rest) = shares context owner rest := rfl
      simp only [vacantAdds vacant, ih, nothing, same, vacant, not_true, false_and, or_false, true_or, true_and]
      constructor
      · rintro ⟨_, ⟨some, rfl⟩, _, each, sum⟩
        exact ⟨some, each, sum⟩
      · rintro ⟨some, each, sum⟩
        exact ⟨before, ⟨some, rfl⟩, .inl some, each, sum⟩
    · have led {between part : SubjectSpec} (alone : addSubject context owner SubjectSpec.empty item = .ok part)
          (early : between.lists = before.lists.append part.lists) :
          (between.graphs ≠ [] ∨ Led context owner rest) ↔
            before.graphs ≠ [] ∨ (Graphed context owner item ∨ Led context owner rest) := by
        have level : between.graphs = before.graphs ++ part.graphs := congrArg SubjectLists.graphs early
        rw [level, ← graphsGiven alone, ← or_assoc]
        simp only [ne_eq, List.append_eq_nil_iff, not_and_or]
      simp only [itemAdditive vacant before _, ih, vacant, not_false_eq_true, true_and, false_or]
      constructor
      · rintro ⟨between, ⟨part, alone, early⟩, before, each, sum⟩
        refine ⟨(led alone early).mp before, ⟨⟨part, alone⟩, each⟩, ?_⟩
        rw [sum, early, SubjectLists.appendAssoc, shareRead alone]
      · rintro ⟨before, ⟨⟨part, alone⟩, each⟩, sum⟩
        rw [shareRead alone] at sum
        obtain ⟨⟨between, early⟩, _⟩ := SubjectSpec.partsGiven sum
        refine ⟨between, ⟨part, alone, early⟩, (led alone early).mpr before, each, ?_⟩
        rw [sum, early, SubjectLists.appendAssoc]

theorem listedOk (listed : s.get? .subjects = .ok (some (.arr items))) {spec : SubjectSpec} :
    parseSubjects context s = .ok spec ↔
      items.foldlM (addSubject context s.owner) SubjectSpec.empty = .ok spec ∧ spec.Allowed := by
  simp only [subjectsOk, listed, Except.ok.injEq, Option.some.injEq, exists_eq_left']
  rfl

structure Reordered (one two : SubjectSpec) : Prop where
  quoted : one.quoted = two.quoted
  templates : one.templates.Perm two.templates
  graphs : one.graphs.Perm two.graphs
  functions : one.functions.Perm two.functions

theorem allowedReordered {one two : SubjectSpec} (reordered : Reordered one two) : one.Allowed ↔ two.Allowed := by
  simp only [SubjectSpec.Allowed, ne_eq, ← List.length_eq_zero_iff, reordered.quoted, reordered.templates.length_eq,
    reordered.functions.length_eq]

theorem onlyPermuted {α : Type} {a b : Option α} (permuted : a.toList.Perm b.toList) : a = b := by
  cases b with
  | none => exact Option.toList_eq_nil_iff.mp permuted.eq_nil
  | some _ => exact Option.toList_eq_singleton_iff.mp permuted.eq_singleton

theorem sharesPermuted {others : List Json} (permuted : others.Perm items) {one two : SubjectSpec}
    (first : one.lists = shares context owner others) (second : two.lists = shares context owner items) :
    Reordered one two := by
  simp only [SubjectSpec.lists, shares, SubjectLists.mk.injEq] at first second
  obtain ⟨templates, quoted, graphs, functions⟩ := first
  obtain ⟨templates', quoted', graphs', functions'⟩ := second
  refine ⟨?_, ?_, ?_, ?_⟩
  · refine onlyPermuted ?_
    rw [quoted, quoted']
    exact permuted.flatMap_right _
  · rw [templates, templates']
    exact permuted.flatMap_right _
  · rw [graphs, graphs']
    exact permuted.flatMap_right _
  · rw [functions, functions']
    exact permuted.flatMap_right _

/-- A list of subjects that is accepted is accepted in another order exactly when there, too, every vacant entry has an
entry with graphs before it, so always when there is no vacant entry. It then has the same subjects. -/
theorem subjectsReordered {t : Section} {others : List Json} {spec : SubjectSpec}
    (listed : s.get? .subjects = .ok (some (.arr items))) (relisted : t.get? .subjects = .ok (some (.arr others)))
    (permuted : others.Perm items) (named : t.owner = s.owner) (read : parseSubjects context s = .ok spec) :
    ((∃ other, parseSubjects context t = .ok other) ↔ Led context s.owner others) ∧
    ((∀ item ∈ items, ¬ Vacant context s.owner item) → ∃ other, parseSubjects context t = .ok other) ∧
    ∀ other, parseSubjects context t = .ok other → Reordered other spec := by
  obtain ⟨folded, allowed⟩ := (listedOk listed).mp read
  obtain ⟨_, each, sum⟩ := foldedShares.mp folded
  have same {other : SubjectSpec} (also : other.lists = shares context s.owner others) : Reordered other spec :=
    sharesPermuted permuted also sum
  have accepted : (∃ other, parseSubjects context t = .ok other) ↔ Led context s.owner others := by
    simp only [listedOk relisted, named, foldedShares]
    constructor
    · rintro ⟨_, ⟨led, _⟩, _⟩
      exact led.resolve_left (fun some => some rfl)
    · intro led
      -- the entries quote at most once in any order
      have quotes : (shares context s.owner others).quoted.Perm (shares context s.owner items).quoted :=
        permuted.flatMap_right _
      have once := quotes.length_eq.trans_le (SubjectSpec.listsGiven.mp ⟨spec, sum⟩)
      obtain ⟨other, also⟩ := SubjectSpec.listsGiven.mpr once
      refine ⟨other, ⟨.inr led, fun item there => each item (permuted.mem_iff.mp there), also⟩, ?_⟩
      exact (allowedReordered (same also)).mpr allowed
  refine ⟨accepted, fun filled => accepted.mpr fun before item after whole vacant => ?_, fun other again => ?_⟩
  · refine absurd vacant (filled item (permuted.mem_iff.mp ?_))
    rw [whole]
    exact List.mem_append_right _ List.mem_cons_self
  · obtain ⟨refolded, _⟩ := (listedOk relisted).mp again
    rw [named] at refolded
    exact same (foldedShares.mp refolded).2.2

def staffEntry : Json :=
  .obj [("value", .str "http://example.org/staff/$(id)"), ("graphs", .str "http://example.org/staff")]

def personEntry : Json := .str "http://example.org/$(id)"

def subjectsSection (items : List Json) : Section := ⟨"person", [("subjects", .arr items)]⟩

theorem subjectsWritten (items : List Json) : (subjectsSection items).get? .subjects = .ok (some (.arr items)) := rfl

theorem staffReordered : ∃ spec other,
    parseSubjects bareContext (subjectsSection [staffEntry, .obj [], personEntry]) = .ok spec ∧
    parseSubjects bareContext (subjectsSection [personEntry, staffEntry, .obj []]) = .ok other ∧
    Reordered other spec ∧ Led bareContext "person" [personEntry, staffEntry, .obj []] := by
  have read : parseSubjects bareContext (subjectsSection [staffEntry, .obj [], personEntry]) = .ok _ := rfl
  have again : parseSubjects bareContext (subjectsSection [personEntry, staffEntry, .obj []]) = .ok _ := rfl
  have permuted : ([personEntry] ++ [staffEntry, .obj []]).Perm ([staffEntry, .obj []] ++ [personEntry]) :=
    List.perm_append_comm
  obtain ⟨accepted, _, same⟩ := subjectsReordered (subjectsWritten _) (subjectsWritten _) permuted rfl read
  exact ⟨_, _, read, again, same _ again, accepted.mp ⟨_, again⟩⟩

theorem vacantInFront : [.obj [], staffEntry].Perm [staffEntry, .obj []] ∧
    (∃ spec, parseSubjects bareContext (subjectsSection [staffEntry, .obj []]) = .ok spec) ∧
    parseSubjects bareContext (subjectsSection [.obj [], staffEntry]) =
      .error (.validation "person" .emptySubjectEntry) :=
  ⟨.swap _ _ _, ⟨_, rfl⟩, rfl⟩

end TabularRdf.Document
