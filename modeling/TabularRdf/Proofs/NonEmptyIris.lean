import TabularRdf.Proofs.FilledTemplates
import TabularRdf.Proofs.TermOrigins
import TabularRdf.Proofs.TermOutlines

/-! Empty IRIs. An expansion refuses the empty text, and so a row gives no empty IRI; it still can when a prefix
stands for nothing, when a template starts with an empty external value, or when an author has an empty WebID or
site. Without these there is no empty IRI in a run. -/
namespace TabularRdf.Rdf

def Term.NonEmpty : Term → Prop
  | .iri name => name ≠ ""
  | .literal value => value.datatype ≠ some ""
  | .quoted s p o => s.NonEmpty ∧ p.NonEmpty ∧ o.NonEmpty

theorem plainNonEmpty (value : String) : (Term.plain value).NonEmpty := by
  simp [Term.plain, Term.NonEmpty, Literal.plain]

end TabularRdf.Rdf

namespace TabularRdf.Iri.Resolver

def Spelled (r : Resolver) : Prop := ∀ p ∈ r.prefixes, p.2 ≠ ""

variable {r : Resolver}

theorem qualifiedNonEmpty {value : String} (given : value ≠ "") : r.qualify value ≠ "" := by
  unfold qualify
  split
  · exact fun same => given (String.append_eq_empty_iff.mp same).2
  · exact given

theorem headNonEmpty (spelled : r.Spelled) {value : String} (given : value ≠ "" ∨ r.qualify "" ≠ "") :
    r.expandHead value ≠ "" := by
  by_cases empty : value = ""
  · subst empty
    exact given.resolve_left fun other => other rfl
  · unfold expandHead
    split
    · split
      · rename_i found
        exact fun same => spelled _ (Named.foundListed found) (String.append_eq_empty_iff.mp same).1
      · exact empty
    · exact qualifiedNonEmpty empty

theorem expandedNonEmpty (spelled : r.Spelled) {value iri : String} (expanded : r.expand value = .ok iri) :
    iri ≠ "" := by
  unfold expand at expanded
  split at expanded
  · contradiction
  · rename_i given
    cases Except.ok.inj expanded
    exact headNonEmpty spelled (.inl fun same => given (same ▸ rfl))

theorem referenceNonEmpty (spelled : r.Spelled) {value iri : String} (resolved : r.resolveReference value = .ok iri) :
    iri ≠ "" := by
  unfold resolveReference at resolved
  split at resolved
  · contradiction
  · rename_i given
    split at resolved
    · exact expandedNonEmpty spelled resolved
    · cases Except.ok.inj resolved
      refine qualifiedNonEmpty fun same => given ?_
      rw [← encodedEmpty, same]
      rfl

end TabularRdf.Iri.Resolver

namespace TabularRdf.Mapping

/- A template does not start with an empty text, unless a base is put in front of it. -/
def Template.Started (resolver : Iri.Resolver) (t : Template) : Prop := t.Filled ∨ resolver.qualify "" ≠ ""

end TabularRdf.Mapping

namespace TabularRdf.Generation
open Iri Mapping Rdf Loading

def Shape.NonEmpty : Shape → Prop
  | .constant term => term.NonEmpty
  | .headed head _ => head ≠ ""
  | .literal _ datatype _ => datatype ≠ some (.fixed "")
  | .wholeValue _ | .filled _ => True

theorem madeNonEmpty {value : String} {datatype language : Option String} {l : Literal}
    (made : makeLiteral value datatype language = .ok l) (typed : datatype ≠ some "") : (Term.literal l).NonEmpty := by
  unfold makeLiteral at made
  split at made
  · contradiction
  · cases datatype <;> cases language <;> cases made <;> exact typed

namespace CompiledTerm

variable {resolver : Resolver} (spelled : resolver.Spelled)
include spelled

theorem iriNonEmpty {template : Template} (started : template.Started resolver) {t : CompiledTerm}
    (compiled : iri template resolver = .ok t) : t.shape.NonEmpty := by
  unfold iri at compiled
  split at compiled
  · obtain ⟨iri, expanded, same⟩ := boundOk.mp compiled
    cases pureOk.mp same
    exact Resolver.expandedNonEmpty spelled (templateOk expanded)
  · split at compiled
    · cases pureOk.mp compiled
      trivial
    · rename_i head rest segments
      cases pureOk.mp compiled
      refine Resolver.headNonEmpty spelled (started.imp_left fun filled same => filled ?_)
      rw [segments, same]
      exact List.mem_cons_self
    · cases pureOk.mp compiled
      trivial

theorem datatypeNonEmpty {datatype : Option Template} {qualifier : Option Qualifier} {columns : List String}
    (compiled : Qualifier.datatype? resolver datatype = .ok (qualifier, columns)) :
    qualifier ≠ some (.fixed "") := by
  cases datatype with
  | none =>
    cases Except.ok.inj compiled
    simp
  | some template =>
    obtain ⟨⟨q, _⟩, one, same⟩ := boundOk.mp compiled
    cases pureOk.mp same
    unfold Qualifier.ofDatatype at one
    split at one
    · obtain ⟨iri, expanded, same⟩ := boundOk.mp one
      cases pureOk.mp same
      simpa using Resolver.expandedNonEmpty spelled (templateOk expanded)
    · cases pureOk.mp one
      simp

omit spelled in
theorem fixedNonEmpty {qualifier : Option Qualifier} (whole : qualifier ≠ some (.fixed "")) {datatype : Option String}
    (fixed : Qualifier.fixed? qualifier = some datatype) : datatype ≠ some "" := by
  unfold Qualifier.fixed? at fixed
  split at fixed
  · cases Option.some.inj fixed
    simp
  · cases Option.some.inj fixed
    simpa using whole
  · contradiction

theorem rowNonEmpty {qualifier : Option Qualifier} (whole : qualifier ≠ some (.fixed "")) {columns : List String}
    {cells : List Cell} {datatype : Option String}
    (given : Qualifier.atRow columns cells resolver.expand qualifier = .ok datatype) : datatype ≠ some "" := by
  unfold Qualifier.atRow at given
  split at given
  · cases Except.ok.inj given
    simp
  · cases Except.ok.inj given
    simpa using whole
  · simp only [boundOk, pureOk] at given
    obtain ⟨_, _, iri, expanded, rfl⟩ := given
    simpa using Resolver.expandedNonEmpty spelled expanded

theorem literalNonEmpty {template : Template} {datatype language : Option Template} {t : CompiledTerm}
    (compiled : literal template datatype language resolver = .ok t) : t.shape.NonEmpty := by
  simp only [literal, boundOk] at compiled
  obtain ⟨⟨datatype, columns⟩, typed, compiled⟩ := compiled
  have whole := datatypeNonEmpty spelled typed
  dsimp only at compiled
  split at compiled
  · rename_i fixed _
    obtain ⟨l, made, same⟩ := boundOk.mp compiled
    cases pureOk.mp same
    exact madeNonEmpty (templateOk made) (fixedNonEmpty whole fixed)
  · cases pureOk.mp compiled
    exact whole

theorem builtNonEmpty {t : CompiledTerm} (fixed : t.shape.NonEmpty) (table : Table) :
    t.Gives resolver table Term.NonEmpty := by
  intro row term built
  simp only [resolve, build] at built
  split at built
  · rename_i shape
    cases Except.ok.inj built
    rw [shape] at fixed
    exact fixed
  · simp only [boundOk, pureOk] at built
    obtain ⟨_, _, _, resolved, rfl⟩ := built
    exact Resolver.referenceNonEmpty spelled resolved
  · rename_i shape
    simp only [boundOk, pureOk] at built
    obtain ⟨_, _, rfl⟩ := built
    rw [shape] at fixed
    exact fun same => fixed (String.append_eq_empty_iff.mp same).1
  · simp only [boundOk, pureOk] at built
    obtain ⟨_, _, _, expanded, rfl⟩ := built
    exact Resolver.expandedNonEmpty spelled expanded
  · rename_i shape
    simp only [boundOk, pureOk] at built
    obtain ⟨_, _, datatype, typed, _, _, l, made, rfl⟩ := built
    rw [shape] at fixed
    exact madeNonEmpty made (rowNonEmpty spelled fixed typed)

end CompiledTerm

section

variable {resolver : Resolver} (spelled : resolver.Spelled)
include spelled

theorem objectNonEmpty {object : ObjectTerm} (started : object.kind = .iri → object.template.Started resolver)
    {t : CompiledTerm} (compiled : CompiledTerm.object object resolver = .ok t) : t.shape.NonEmpty := by
  unfold CompiledTerm.object at compiled
  split at compiled
  · rename_i kind
    exact CompiledTerm.iriNonEmpty spelled (started kind) compiled
  · exact CompiledTerm.literalNonEmpty spelled compiled

theorem mapNonEmpty {m : TriplesMap} (started : ∀ t ∈ m.templates, t.Started resolver) {map : CompiledMap}
    (compiled : CompiledMap.compile m resolver = .ok map) : ∀ t ∈ map.terms, t.shape.NonEmpty := by
  intro t mem
  obtain ⟨object, written, one⟩ := mapFrom compiled t mem
  exact objectNonEmpty spelled (fun _ => started _ (writtenTemplate written)) one

end

theorem outcomeNonEmpty {spec : Specification} {options : GenerationOptions} {provider : TableProvider}
    {cancelled : Bool} (spelled : (resolverOf spec options).Spelled)
    (started : ∀ m ∈ spec.maps, ∀ t ∈ m.templates, t.Started (resolverOf spec options))
    (creators : options.dataset.isSome → ∀ author ∈ spec.authors, creatorOf author ≠ some (.iri ""))
    {outcome : Outcome} (ran : run spec options provider cancelled = .ok outcome) :
    ∀ quad ∈ outcome.quads, quad.Each Term.NonEmpty := by
  refine outcomeGiven (fun s p o subject predicate object => ⟨subject, predicate, object⟩) (fun quads => ?_) ?_ ran
  · refine descriptionGiven (by decide : ∀ iri ∈ _, iri ≠ "") plainNonEmpty
      (fun _ _ _ => Resolver.expandedNonEmpty spelled) fun asked author listed iri given same => ?_
    exact creators asked author listed (same ▸ given)
  · intro m listed map compiled _ _ table _ t mem
    exact CompiledTerm.builtNonEmpty spelled (mapNonEmpty spelled (started m listed) compiled t mem) table

end TabularRdf.Generation

namespace TabularRdf.Document
open Mapping Generation Loading Rdf

theorem noEmptyIri {settings : BuildOptions} {document : Json} {spec : Specification}
    (built : build settings document = .ok spec) (prefixes : ∀ p ∈ spec.prefixes, p.2 ≠ "")
    (starts : (∃ base, spec.base = some base ∧ base ≠ "") ∨ ∀ e ∈ spec.external, e.2 ≠ "")
    {options : GenerationOptions}
    (creators : options.dataset.isSome → ∀ author ∈ spec.authors, creatorOf author ≠ some (.iri ""))
    {provider : TableProvider} {cancelled : Bool} {outcome : Outcome}
    (ran : run spec options provider cancelled = .ok outcome) :
    ∀ quad ∈ outcome.quads, quad.Each Term.NonEmpty := by
  obtain ⟨context, same, read⟩ := builtTemplates built
  refine outcomeNonEmpty prefixes (fun m mem t listed => ?_) creators ran
  rcases starts with ⟨base, given, nonempty⟩ | values
  · refine .inr fun empty => nonempty ?_
    simpa [resolverOf, Iri.Resolver.qualify, given] using empty
  · exact .inl (readFilled (read m mem t listed) (same ▸ values))

def thingDocument (declared : Json.Fields) (subject : String) : Json := .obj (declared ++ [("mappings", .obj [
  ("thing", .obj [
    ("sources", .arr [.str "things.csv~csv"]),
    ("s", .str subject),
    ("po", .arr [.arr [.str "a", .str "http://example.org/Thing"]])])])])

def blankTable : Table where
  schema := ⟨[⟨"id", .string, false⟩]⟩
  columns := [.string #[some ""]]
  rows := 1

def described : GenerationOptions :=
  { GenerationOptions.default with dataset := some ⟨"http://example.org/set", none⟩ }

theorem thingsNamed : ∃ spec outcome,
    build .default (thingDocument [("external", .obj [("root", .str "thing-")]), ("authors", .str "Ann <a@b.org>")]
      "$(_root)$(id)") = .ok spec ∧
    run spec described (fun _ => some blankTable) false = .ok outcome ∧ outcome.quads.length = 3 ∧
    ∀ quad ∈ outcome.quads, quad.Each Term.NonEmpty := by
  have given : ((build .default (thingDocument
      [("external", .obj [("root", .str "thing-")]), ("authors", .str "Ann <a@b.org>")] "$(_root)$(id)")).toOption.bind
      fun spec => (run spec described (fun _ => some blankTable) false).toOption.map fun outcome =>
        (spec.prefixes.all fun p => p.2 ≠ "", spec.external.all fun e => e.2 ≠ "",
          spec.authors.all fun author => creatorOf author ≠ some (.iri ""), outcome.quads.length)) =
      some (true, true, true, 3) := by decide +kernel
  obtain ⟨spec, read, rest⟩ := Option.bind_eq_some_iff.mp given
  obtain ⟨outcome, result, checks⟩ := Option.map_eq_some_iff.mp rest
  simp only [Prod.mk.injEq, List.all_eq_true, decide_eq_true_eq] at checks
  obtain ⟨prefixes, external, authors, count⟩ := checks
  have built := optionOk.mp read
  have ran := optionOk.mp result
  exact ⟨spec, outcome, built, ran, count, noEmptyIri built prefixes (.inr external) (fun _ => authors) ran⟩

def GivesEmpty (declared : Json.Fields) (subject : String) (options : GenerationOptions) : Prop :=
  ∃ spec outcome, build .default (thingDocument declared subject) = .ok spec ∧
    run spec options (fun _ => some blankTable) false = .ok outcome ∧
    ∃ quad ∈ outcome.quads, ¬ quad.Each Term.NonEmpty

theorem emptyGiven {declared : Json.Fields} {subject : String} {options : GenerationOptions}
    (found : ((build .default (thingDocument declared subject)).toOption.bind fun spec =>
      (run spec options (fun _ => some blankTable) false).toOption.map fun outcome =>
        outcome.quads.any fun quad => quad.subject = .iri "" || quad.object = .iri "") = some true) :
    GivesEmpty declared subject options := by
  obtain ⟨spec, read, rest⟩ := Option.bind_eq_some_iff.mp found
  obtain ⟨outcome, result, empty⟩ := Option.map_eq_some_iff.mp rest
  simp only [List.any_eq_true, Bool.or_eq_true, decide_eq_true_eq] at empty
  obtain ⟨quad, mem, same⟩ := empty
  refine ⟨spec, outcome, optionOk.mp read, optionOk.mp result, quad, mem, fun each => ?_⟩
  rcases same with subject | object
  · exact (subject ▸ each.subject : (Term.iri "").NonEmpty) rfl
  · exact (object ▸ each.object : (Term.iri "").NonEmpty) rfl

theorem emptyEachWay : GivesEmpty [("external", .obj [("root", .str "")])] "$(_root)$(id)" .default ∧
    GivesEmpty [("prefixes", .obj [("ex", .str "")])] "ex:$(id)" .default ∧
    GivesEmpty [("authors", .obj [("webid", .str "")])] "http://example.org/$(id)" described :=
  ⟨emptyGiven (by decide +kernel), emptyGiven (by decide +kernel), emptyGiven (by decide +kernel)⟩

end TabularRdf.Document
