import TabularRdf.Proofs.DirectReadings
import TabularRdf.Proofs.ReloadedTemplates
import TabularRdf.Proofs.TemplateFaults

/-! External values put into the templates of a literal before it is compiled, or found in every row afterwards.
Putting them in may turn a template into a constant, which is then checked once and for all; what a row gives, and
what it is refused for, is the same. -/
namespace TabularRdf.Generation
open Iri Mapping Rdf Loading

def Row.withExternals (external : Named String) (row : Row) : Row := fun column =>
  match external.find? fun e => column = "_" ++ e.1 with
  | some e => .value e.2
  | none => row column

section

variable {external : Named String} {row : Row} {encode : String → String}

theorem externalFound (external : Named String) (name : String) :
    Template.externalValue? external (.column name) = (external.find? fun e => name = "_" ++ e.1).map Prod.snd := by
  unfold Template.externalValue?
  dsimp only
  split
  · rename_i rest chars
    have named : name = "_" ++ String.ofList rest := String.toList_inj.mp (by simpa using chars)
    induction external with
    | nil => rfl
    | cons e more ih =>
      obtain ⟨key, value⟩ := e
      have same : (name = "_" ++ key) ↔ String.ofList rest = key := by simp [named]
      by_cases here : String.ofList rest = key
      · rw [List.find?_cons_of_pos (by simpa using same.mpr here), here, List.lookup_cons_self, Option.map_some]
      · rw [List.find?_cons_of_neg (by simpa using mt same.mp here), List.lookup_cons, beq_false_of_ne here, ih]
  · rename_i other
    have absent : (external.find? fun e => name = "_" ++ e.1) = none := by
      refine List.find?_eq_none.mpr fun e _ same => other e.1.toList ?_
      simp [of_decide_eq_true same]
    rw [absent]
    rfl

theorem pieceLate (s : Segment) : pieceAt row id (Template.substitute external s) =
    pieceAt (row.withExternals external) id s := by
  cases s with
  | text t => rfl
  | column name =>
    unfold Template.substitute
    rw [externalFound]
    cases found : external.find? fun e => name = "_" ++ e.1 with
    | none => simp [pieceAt, Row.text, Row.withExternals, found]
    | some e => simp [pieceAt, Row.text, Row.withExternals, found, Except.map]

theorem filledMerged (segments : List Segment) :
    filledAt row encode (Template.mergeText segments) = filledAt row encode segments := by
  induction segments with
  | nil => rfl
  | cons s rest ih =>
    cases s with
    | column name => rw [Template.mergeColumn, filledNext, ih, ← filledNext]
    | text t =>
      rcases Template.mergeCases t rest with ⟨u, more, merged, same⟩ | ⟨_, same⟩
      · rw [same, filledNext, filledNext, ← ih, merged, filledNext]
        simp only [pieceAt]
        cases filledAt row encode more with
        | error e => rfl
        | ok text => exact congrArg Except.ok (String.append_assoc ..)
      · rw [same, filledNext, ih, ← filledNext]

theorem filledLate (external : Named String) (row : Row) (template : Template) :
    filledAt row id (template.withExternals external).segments =
      filledAt (row.withExternals external) id template.segments := by
  by_cases given : external = []
  · subst given
    rfl
  · rw [Template.externalsMerged given, filledMerged]
    unfold filledAt
    rw [List.mapM_map]
    exact congrArg (fun piece => (List.mapM piece template.segments).map String.join) (funext pieceLate)

theorem literalLate (resolver : Resolver) (template : Template) (datatype language : Option Template) :
    literalReading resolver (template.withExternals external) (datatype.map (·.withExternals external))
      (language.map (·.withExternals external)) row =
    literalReading resolver template datatype language (row.withExternals external) := by
  unfold literalReading datatypeReading
  cases datatype <;> cases language <;> simp only [Option.map_none, Option.map_some, Option.mapM_none,
    Option.mapM_some, filledLate]

end

/-! Compiling. -/

theorem constantStays {template : Template} {text : String} (constant : template.constant? = some text)
    (external : Named String) : (template.withExternals external).constant? = some text := by
  have plain : template.isConstant := by
    rw [← Template.constantWhole, constant]
    rfl
  have stays : (template.withExternals external).isConstant :=
    Template.constantExactly.mpr fun name mem => Template.constantExactly.mp plain name (Template.externalsColumns mem)
  obtain ⟨other, given⟩ := Option.isSome_iff_exists.mp ((Template.constantWhole _).trans stays)
  have filled := (filledConstant given).symm.trans ((filledLate external (fun _ => .missing) template).trans
    (filledConstant constant))
  rw [given, Except.ok.inj filled]

theorem constantsStay {template : Option Template} {text : Option String}
    (constant : template.mapM Template.constant? = some text) (external : Named String) :
    (template.map (·.withExternals external)).mapM Template.constant? = some text := by
  cases template with
  | none => exact constant
  | some t =>
    obtain ⟨value, given, rfl⟩ : ∃ value, t.constant? = some value ∧ some value = text := by simpa using constant
    simp [constantStays given external]

section

variable {resolver : Resolver} {qualifier : Option Qualifier} {columns : List String}

theorem datatypeFixed {datatype : Option Template}
    (compiled : Qualifier.datatype? resolver datatype = .ok (qualifier, columns)) :
    Qualifier.fixed? qualifier = (datatype.mapM Template.constant?).map (Option.map resolver.expandHead) := by
  cases datatype with
  | none =>
    cases Except.ok.inj compiled
    rfl
  | some template =>
    obtain ⟨⟨q, _⟩, one, same⟩ := boundOk.mp compiled
    cases pureOk.mp same
    unfold Qualifier.ofDatatype at one
    split at one
    · rename_i text constant
      obtain ⟨iri, expanded, same⟩ := boundOk.mp one
      cases pureOk.mp same
      have whole := templateOk expanded
      unfold Resolver.expand at whole
      split at whole
      · contradiction
      · cases Except.ok.inj whole
        simp [Qualifier.fixed?, constant]
    · rename_i varies
      cases pureOk.mp one
      simp [Qualifier.fixed?, varies]

theorem languageFixed (language : Option Template) (columns : List String) :
    Qualifier.fixed? (Qualifier.language? columns language).1 = language.mapM Template.constant? := by
  cases language with
  | none => rfl
  | some template =>
    cases constant : template.constant? <;> simp [Qualifier.language?, Qualifier.ofLanguage, constant, Qualifier.fixed?]

theorem datatypeCompiles {datatype : Option Template} : (∃ q, Qualifier.datatype? resolver datatype = .ok q) ↔
    ∀ d ∈ datatype, d.constant? ≠ some "" := by
  rw [← failureNone, datatypeFailure, List.head?_eq_none_iff, emptyIris, List.map_eq_nil_iff, List.filter_eq_nil_iff]
  simp [Template.isBlank]

theorem literalCompiles {template : Template} {datatype language : Option Template} :
    (∃ t, CompiledTerm.literal template datatype language resolver = .ok t) ↔
      (∀ d ∈ datatype, d.constant? ≠ some "") ∧
        ∀ value type tag, template.constant? = some value → datatype.mapM Template.constant? = some type →
          language.mapM Template.constant? = some tag →
            ∃ l, makeLiteral value (type.map resolver.expandHead) tag = .ok l := by
  constructor
  · rintro ⟨t, compiled⟩
    simp only [CompiledTerm.literal, boundOk] at compiled
    obtain ⟨⟨q, columns⟩, typed, compiled⟩ := compiled
    refine ⟨datatypeCompiles.mp ⟨_, typed⟩, fun value type tag constant types tags => ?_⟩
    have first := datatypeFixed typed
    rw [types] at first
    dsimp only at compiled
    rw [constant, first, (languageFixed language columns).trans tags] at compiled
    obtain ⟨l, made, _⟩ := boundOk.mp compiled
    exact ⟨l, templateOk made⟩
  · rintro ⟨types, literals⟩
    obtain ⟨⟨q, columns⟩, typed⟩ : ∃ q, Qualifier.datatype? resolver datatype = .ok q := datatypeCompiles.mpr types
    rw [CompiledTerm.literal, typed]
    simp only [bind, Except.bind]
    split
    · rename_i value type tag constant fixed tagged
      rw [datatypeFixed typed] at fixed
      obtain ⟨type, types, rfl⟩ := Option.map_eq_some_iff.mp fixed
      obtain ⟨l, made⟩ := literals value type tag constant types ((languageFixed language columns).symm.trans tagged)
      rw [made]
      exact ⟨_, rfl⟩
    · exact ⟨_, rfl⟩

end

theorem externalsBindLate (template : Template) (datatype language : Option Template) (external : Named String)
    {resolver : Resolver} {t : CompiledTerm}
    (compiled : CompiledTerm.literal (template.withExternals external) (datatype.map (·.withExternals external))
      (language.map (·.withExternals external)) resolver = .ok t) :
    ∃ late, CompiledTerm.literal template datatype language resolver = .ok late ∧
      ∀ row : Row, t.resolve resolver row = late.resolve resolver (row.withExternals external) := by
  obtain ⟨types, literals⟩ := literalCompiles.mp ⟨t, compiled⟩
  have before : ∃ late, CompiledTerm.literal template datatype language resolver = .ok late := by
    refine literalCompiles.mpr ⟨fun d given empty => ?_, fun value type tag constant datatypes tags => ?_⟩
    · exact types _ (Option.mem_map_of_mem _ given) (constantStays empty external)
    · exact literals value type tag (constantStays constant external) (constantsStay datatypes external)
        (constantsStay tags external)
  obtain ⟨late, done⟩ := before
  refine ⟨late, done, fun row => ?_⟩
  rw [(CompiledTerm.literalRead compiled).2, (CompiledTerm.literalRead done).2, literalLate]

def greetingTemplate : Template := ⟨"$(_greeting) $(name)", [.column "_greeting", .text " ", .column "name"]⟩

def kindTemplate : Template := ⟨"$(_kind)", [.column "_kind"]⟩

def greetings : Named String := [("greeting", "Hello"), ("kind", "ex:greeting")]

theorem greetingsBindLate : ∃ t late,
    CompiledTerm.literal (greetingTemplate.withExternals greetings) (some (kindTemplate.withExternals greetings)) none
      amountResolver = .ok t ∧
    t.shape = .literal [.text "Hello ", .slot 0] (some (.fixed "http://example.org/greeting")) none ∧
    t.resolve amountResolver (Row.ofRecord [("name", some "Ann")]) =
      .ok (.literal (.typed "Hello Ann" "http://example.org/greeting")) ∧
    t.resolve amountResolver (Row.ofRecord [("name", none)]) = .error (.nullValue "name") ∧
    CompiledTerm.literal greetingTemplate (some kindTemplate) none amountResolver = .ok late ∧
    ∀ row : Row, t.resolve amountResolver row = late.resolve amountResolver (row.withExternals greetings) := by
  have compiled : CompiledTerm.literal (greetingTemplate.withExternals greetings)
      (some (kindTemplate.withExternals greetings)) none amountResolver =
        .ok ⟨.literal [.text "Hello ", .slot 0] (some (.fixed "http://example.org/greeting")) none, ["name"]⟩ := by
    decide +kernel
  obtain ⟨late, done, same⟩ := externalsBindLate greetingTemplate (some kindTemplate) none greetings compiled
  exact ⟨_, late, compiled, rfl, by decide +kernel, by decide +kernel, done, same⟩

end TabularRdf.Generation
