import TabularRdf.Generation.Run
import TabularRdf.Proofs.BuiltMaps
import TabularRdf.Proofs.RowProduct
import TabularRdf.Proofs.TemplateFaults
import TabularRdf.Proofs.TemplateGrammar

/-! Texts of predicates and graphs that are read twice: as a template where quads are made, and as a filter where
they are quoted. An entry puts out quads with its own predicate, and inverse ones with another. -/
namespace TabularRdf.Mapping.Template

def Plain (text : String) : Prop := ¬ ['$', '('] <:+: text.toList

instance (text : String) : Decidable (Plain text) := inferInstanceAs (Decidable (¬ _))

theorem scanPlain {text : List Char} (plain : ¬ ['$', '('] <:+: text) : scan none text = .ok (text.map .char) := by
  induction text with
  | nil => rfl
  | cons c rest ih =>
    have within : ¬ ['$', '('] <:+: rest := fun inside => plain (inside.trans (List.suffix_cons c rest).isInfix)
    have opens : ¬ ['$', '('] <+: c :: rest := fun first => plain first.isInfix
    have escapes : ¬ ['\\', '$', '('] <+: c :: rest := fun ⟨more, same⟩ => plain ⟨['\\'], more, same⟩
    rw [scanChar opens escapes, ih within]
    rfl

theorem parsePlain {text : String} (plain : Plain text) : parse text = .ok (constant text) := by
  have segments : gather [] (text.toList.map .char) = (constant text).segments := by
    rw [← List.append_nil (text.toList.map Token.char), gatherText, gather, List.append_nil, flush, constant,
      List.reverse_reverse, String.ofList_toList]
    simp
  rw [parse, scanPlain plain]
  exact congrArg (fun segments => Except.ok (Template.mk text segments)) segments

theorem constantKept (value : String) (external : Named String) :
    (constant value).withExternals external = constant value := by
  unfold withExternals constant
  split
  · rfl
  · split <;> simp [mergeText, externalValue?]

theorem constantText (value : String) : (constant value).constant? = some value := by
  unfold constant
  split
  · simp_all [constant?, isConstant]
  · simp [constant?, isConstant, Segment.text?]

end TabularRdf.Mapping.Template

namespace TabularRdf.Generation
open Iri Mapping Rdf Loading

structure RowSite.Emits (s : RowSite) (map : CompiledMap) (entry : CompiledEntry) (quad : Quad) : Prop where
  subject : quad.subject ∈ s.subjects map
  predicate : s.term? entry.predicate = some quad.predicate
  object : quad.object ∈ s.objects entry
  graph : quad.graph ∈ s.graphsOf (map.graphLevel entry)

inductive RowSite.Puts (s : RowSite) (map : CompiledMap) (entry : CompiledEntry) : Quad → Prop where
  | direct {quad : Quad} (emitted : s.Emits map entry quad) : Puts s map entry quad
  | inverse {quad : Quad} {predicate : Term} (emitted : s.Emits map entry quad)
      (given : entry.inverse.bind s.term? = some predicate) :
      Puts s map entry ⟨quad.object, predicate, quad.subject, quad.graph⟩

theorem constantGiven {template : Template} {resolver : Resolver} {term : CompiledTerm} {text : String}
    (constant : template.constant? = some text) (compiled : CompiledTerm.iri template resolver = .ok term) :
    ∃ iri, resolver.expand text = .ok iri ∧ ∀ row, term.resolve resolver row = .ok (.iri iri) := by
  simp only [CompiledTerm.iri, constant, boundOk, pureOk] at compiled
  obtain ⟨iri, expanded, rfl⟩ := compiled
  cases found : resolver.expand text with
  | error e => simp [inTemplate, found, Except.mapError] at expanded
  | ok other =>
    rw [found] at expanded
    cases Except.ok.inj expanded
    exact ⟨iri, rfl, fun row => rfl⟩

end TabularRdf.Generation

namespace TabularRdf.Document
open Iri Mapping Rdf Loading Generation

def Context.predicateIri? (context : Context) (text : String) : Option String := do
  let predicate ← (parsePredicate context text).toOption
  (context.resolver.expand (← predicate.template.constant?)).toOption

def Context.graphIri? (context : Context) (text : String) : Option String := do
  let template ← (context.template text).toOption
  (context.resolver.expand (← template.constant?)).toOption

def Context.filterIri? (context : Context) (text : String) : Option String := (context.expand "" text).toOption

def textsUnder (owner : String) (k : Keyword) (value : Json) : List String :=
  (((Section.get? ⟨owner, value.obj?.getD []⟩ k).toOption.join.map itemsOf).getD []).filterMap scalarText?

def filterTexts (owner : String) (k : Keyword) (condition : Json) : List String :=
  (itemsOf condition).flatMap (textsUnder owner k)

section

variable {context : Context} {owner : String}

theorem expandedFor {text iri : String} (expanded : context.expand owner text = .ok iri) :
    context.filterIri? text = some iri := by
  unfold Context.filterIri? Context.expand at *
  split
  · rename_i type
    rw [if_pos type] at expanded
    exact optionOk.mpr expanded
  · rename_i other
    rw [if_neg other] at expanded
    cases found : context.resolver.expand text <;> simp_all [Except.mapError, Except.toOption]

theorem itemsRead {problem : Problem} {items : List Json} {iris : List String}
    (read : (items.mapM fun item => do
      let text ← scalarOr owner problem item
      context.expand owner text) = .ok iris) :
    (items.filterMap scalarText?).map context.filterIri? = iris.map some := by
  have pairs := mappedOk.mp read
  clear read
  induction pairs with
  | nil => rfl
  | cons head _ ih =>
    obtain ⟨text, scalar, expanded⟩ := boundOk.mp head
    unfold scalarOr at scalar
    split at scalar
    · rename_i found
      cases Except.ok.inj scalar
      rw [List.filterMap_cons_some found, List.map_cons, expandedFor expanded, ih, List.map_cons]
    · contradiction

theorem irisRead {fields : Json.Fields} {k : Keyword} {problem : Problem} {iris : List String}
    (read : filterIris context ⟨owner, fields⟩ k problem = .ok iris) :
    (textsUnder owner k (.obj fields)).map context.filterIri? = iris.map some := by
  obtain ⟨found, got, read⟩ := boundOk.mp read
  simp only [textsUnder, Json.obj?, Option.getD_some, got]
  cases found with
  | none =>
    cases pureOk.mp read
    rfl
  | some value => exact itemsRead read

theorem conditionRead {item : Json} {read : ConditionItem} (loaded : conditionItem context owner item = .ok read) :
    (textsUnder owner .predicates item).map context.filterIri? = read.predicates.map some ∧
      (textsUnder owner .graphs item).map context.filterIri? = read.graphs.map some := by
  simp only [conditionItem, boundOk, pureOk] at loaded
  obtain ⟨s, whole, _, _, predicates, first, graphs, second, rfl⟩ := loaded
  cases item with
  | obj fields =>
    cases Except.ok.inj whole
    exact ⟨irisRead first, irisRead second⟩
  | _ => cases whole

theorem flattened {α β γ δ : Type} {f : α → List β} {g : γ → List δ} {h : β → Option δ} {xs : List α} {ys : List γ}
    (pairs : List.Forall₂ (fun x y => (f x).map h = (g y).map some) xs ys) :
    (xs.flatMap f).map h = (ys.flatMap g).map some := by
  induction pairs with
  | nil => rfl
  | cons head _ ih => simp only [List.flatMap_cons, List.map_append, head, ih]

theorem filterRead {value : Json} {condition : Option JoinCondition} {filter : QuoteFilter}
    (loaded : joinCondition context owner value = .ok (condition, filter)) :
    (filterTexts owner .predicates value).map context.filterIri? = filter.predicates.map some ∧
      (filterTexts owner .graphs value).map context.filterIri? = filter.graphs.map some := by
  simp only [joinCondition, boundOk, pureOk] at loaded
  obtain ⟨items, mapped, same⟩ := loaded
  cases same
  have pairs := (mappedOk.mp mapped).imp fun _ _ => conditionRead
  exact ⟨flattened (pairs.imp fun _ _ => And.left), flattened (pairs.imp fun _ _ => And.right)⟩

theorem oneText {text : String} {iris : List String} (read : [text].map context.filterIri? = iris.map some)
    (iri : String) : QuoteFilter.passes iris (some iri) ↔ some iri = context.filterIri? text := by
  cases iris with
  | nil => cases read
  | cons first rest =>
    obtain ⟨head, tail⟩ := List.cons.inj read
    cases List.map_eq_nil_iff.mp tail.symm
    simp [QuoteFilter.passes, head]

theorem templatePlain {text : String} (plain : Template.Plain text) :
    context.template text = .ok (.constant text) := by
  rw [Context.template, Template.parsePlain plain]
  exact congrArg Except.ok (Template.constantKept text context.external)

theorem otherThanType {text : String} (other : text ≠ "a") :
    context.filterIri? text = (context.resolver.expand text).toOption := by
  rw [Context.filterIri?, Context.expand, if_neg other]
  cases context.resolver.expand text <;> rfl

theorem graphPlain {text : String} (plain : Template.Plain text) (other : text ≠ "a") :
    context.graphIri? text = context.filterIri? text := by
  rw [otherThanType other, Context.graphIri?, templatePlain plain]
  simp [Except.toOption, Template.constantText]

theorem typeExpanded {resolver : Resolver} (undeclared : resolver.prefixes.lookup "http" = none) :
    resolver.expand Vocabulary.rdfType = .ok Vocabulary.rdfType := by
  have split : Resolver.splitName? Vocabulary.rdfType =
      some ("http", "//www.w3.org/1999/02/22-rdf-syntax-ns#type") := by decide +kernel
  rw [Resolver.expand, if_neg (by decide +kernel), Resolver.expandHead, split]
  simp only [undeclared]

theorem predicatePlain {text : String} (plain : Template.Plain text)
    (type : text = "a" → context.resolver.prefixes.lookup "http" = none) :
    context.predicateIri? text = context.filterIri? text := by
  by_cases written : text = "a"
  -- the template of the class predicate is expanded a second time when it is compiled, the filter is not
  · have expanded := typeExpanded (type written)
    simp only [Context.predicateIri?, parsePredicate, Context.filterIri?, Context.expand, if_pos written]
    simp [Except.toOption, Template.constantText, expanded]
  · rw [otherThanType written, Context.predicateIri?, parsePredicate, if_neg written, templatePlain plain]
    simp [Except.toOption, Template.constantText, bind, Except.bind, pure, Except.pure]

end

inductive PredicateWritten (context : Context) (s : RowSite) (text : String) : Quad → Prop where
  | intro {predicate : Predicate} {po : PredicateObject} {entry : CompiledEntry} {map : CompiledMap} {quad : Quad}
      (read : parsePredicate context text = .ok predicate) (constant : predicate.template.isConstant)
      (written : po.predicate = predicate.template) (compiled : CompiledEntry.compile s.resolver po = .ok entry)
      (emitted : s.Emits map entry quad) : PredicateWritten context s text quad

inductive GraphWritten (context : Context) (s : RowSite) (text : String) : Quad → Prop where
  | intro {template : Template} {level : CompiledTerm} {map : CompiledMap} {entry : CompiledEntry} {quad : Quad}
      {graph : String} (read : context.template text = .ok template) (constant : template.isConstant)
      (compiled : CompiledTerm.iri template s.resolver = .ok level) (listed : level ∈ map.graphLevel entry)
      (given : s.term? level = some (.iri graph)) (emitted : s.Puts map entry quad)
      (inside : quad.graph = some graph) : GraphWritten context s text quad

section

variable {context : Context} {s : RowSite} {text : String} {quad : Quad}
  (expands : ∀ value, s.resolver.expand value = context.resolver.expand value)
include expands

theorem writtenPredicate (written : PredicateWritten context s text quad) :
    ∃ iri, quad.predicate.iri? = some iri ∧ context.predicateIri? text = some iri := by
  obtain ⟨read, constant, same, compiled, emitted⟩ := written
  rename_i predicate po entry map
  rw [← Template.constantWhole, Option.isSome_iff_exists] at constant
  obtain ⟨value, constant⟩ := constant
  simp only [CompiledEntry.compile, boundOk, pureOk] at compiled
  obtain ⟨_, _, term, compiled, _, _, _, _, rfl⟩ := compiled
  obtain ⟨iri, expanded, resolved⟩ := constantGiven constant (same ▸ compiled)
  have given := emitted.predicate
  simp only [RowSite.term?, resolved, Except.toOption, Option.some.injEq] at given
  rw [expands] at expanded
  refine ⟨iri, given ▸ rfl, ?_⟩
  simp [Context.predicateIri?, read, constant, expanded, Except.toOption]

theorem writtenGraph (written : GraphWritten context s text quad) :
    ∃ iri, quad.graph = some iri ∧ context.graphIri? text = some iri := by
  obtain ⟨read, constant, compiled, _, given, _, inside⟩ := written
  rw [← Template.constantWhole, Option.isSome_iff_exists] at constant
  obtain ⟨value, constant⟩ := constant
  obtain ⟨iri, expanded, resolved⟩ := constantGiven constant compiled
  simp only [RowSite.term?, resolved, Except.toOption, Option.some.injEq, Term.iri.injEq] at given
  rw [expands] at expanded
  refine ⟨iri, given ▸ inside, ?_⟩
  simp [Context.graphIri?, read, constant, expanded, Except.toOption]

end

/-- A filter of one text lets pass a quad whose predicate or graph is written as this text if it takes the text for
the same IRI, and not otherwise. It does so for every text in which no placeholder opens, `a` apart: a predicate `a`
is the class predicate to both unless `http` is a declared prefix, a graph `a` is no abbreviation. -/
theorem filtersMeanTexts {settings : BuildOptions} {document : Json} {spec : Specification}
    (built : build settings document = .ok spec) : ∃ root fields,
      Reading document (contextOf spec) root fields spec ∧
      ∀ (options : GenerationOptions) (s : RowSite), s.resolver = resolverOf spec options →
        ∀ owner value condition filter, joinCondition (contextOf spec) owner value = .ok (condition, filter) →
          ∀ text quad,
            (filterTexts owner .predicates value = [text] → PredicateWritten (contextOf spec) s text quad →
              (QuoteFilter.passes filter.predicates quad.predicate.iri? ↔
                (contextOf spec).predicateIri? text = (contextOf spec).filterIri? text) ∧
              (Template.Plain text → (text = "a" → spec.prefixes.lookup "http" = none) →
                QuoteFilter.passes filter.predicates quad.predicate.iri?)) ∧
            (filterTexts owner .graphs value = [text] → GraphWritten (contextOf spec) s text quad →
              (QuoteFilter.passes filter.graphs quad.graph ↔
                (contextOf spec).graphIri? text = (contextOf spec).filterIri? text) ∧
              (Template.Plain text → text ≠ "a" → QuoteFilter.passes filter.graphs quad.graph)) := by
  obtain ⟨root, fields, reading⟩ := contextReading built
  refine ⟨root, fields, reading, fun options s same owner value condition filter loaded text quad => ?_⟩
  have expands (value : String) : s.resolver.expand value = (contextOf spec).resolver.expand value := by
    rw [same]
    rfl
  obtain ⟨predicates, graphs⟩ := filterRead loaded
  constructor
  · intro alone written
    obtain ⟨iri, found, given⟩ := writtenPredicate expands written
    rw [alone] at predicates
    have exact := oneText predicates iri
    rw [found, given]
    exact ⟨exact, fun plain type => exact.mpr (given ▸ predicatePlain plain type)⟩
  · intro alone written
    obtain ⟨iri, found, given⟩ := writtenGraph expands written
    rw [alone] at graphs
    have exact := oneText graphs iri
    rw [found, given]
    exact ⟨exact, fun plain other => exact.mpr (given ▸ graphPlain plain other)⟩

def friendsOnly (predicate : String) : Json :=
  .obj [("predicates", .str predicate), ("graphs", .str "ex:people")]

def notedFriends (predicate : String) : Json := .obj [
  ("prefixes", .obj [("ex", .str "http://example.org/")]),
  ("external", .obj [("ns", .str "http://example.org/")]),
  ("mappings", .obj [
    ("person", .obj [
      ("sources", .arr [.str "people.csv~csv"]),
      ("s", .str "ex:$(id)"),
      ("po", .arr [.obj [("p", .str predicate), ("o", .str "ex:$(friend)~iri"), ("graphs", .str "ex:people")]])]),
    ("note", .obj [
      ("sources", .arr [.str "people.csv~csv"]),
      ("s", .obj [("quoted", .str "person"), ("condition", friendsOnly predicate)]),
      ("po", .arr [.arr [.str "ex:by", .str "$(id)"]])])])]

def notedContext : Context :=
  ⟨[], [], [("ns", "http://example.org/")], ⟨[("ex", "http://example.org/")], none, .percent⟩⟩

def friendOf (predicate : String) : PredicateObject :=
  ⟨.constant predicate, .term ⟨⟨"ex:$(friend)", [.text "ex:", .column "friend"]⟩, .iri, none, none⟩, none,
    [.constant "ex:people"], none⟩

def friendSite : RowSite := ⟨notedContext.resolver, ⟨[], [], []⟩, agesTable, (0, 0)⟩

def friendQuad : Quad :=
  ⟨.iri "http://example.org/1", .iri "http://example.org/friend", .iri "http://example.org/2",
    some "http://example.org/people"⟩

theorem notedRead {predicate : String}
    (given : (build ⟨false⟩ (notedFriends predicate)).toOption.map (fun spec =>
      (spec.sources.isEmpty && spec.targets.isEmpty, spec.external, spec.prefixes, spec.base)) =
      some (true, [("ns", "http://example.org/")], [("ex", "http://example.org/")], none)) :
    ∃ spec, build ⟨false⟩ (notedFriends predicate) = .ok spec ∧ contextOf spec = notedContext ∧
      resolverOf spec .default = notedContext.resolver := by
  obtain ⟨spec, read, parts⟩ := Option.map_eq_some_iff.mp given
  simp only [Prod.mk.injEq, Bool.and_eq_true, List.isEmpty_iff] at parts
  obtain ⟨⟨sources, targets⟩, external, prefixes, base⟩ := parts
  refine ⟨spec, optionOk.mp read, ?_, ?_⟩
  · rw [contextOf, sources, targets, external, prefixes, base]
    rfl
  · rw [resolverOf, prefixes, base]
    rfl

theorem friendWritten {text : String} (predicate : String)
    (read : (parsePredicate notedContext text).toOption = some ⟨.constant predicate, false⟩)
    (given : (CompiledEntry.compile notedContext.resolver (friendOf predicate)).toOption.map (fun entry =>
      (friendSite.term? entry.predicate, friendSite.objects entry, entry.graphs)) =
      some (some friendQuad.predicate, [friendQuad.object], [⟨.constant (.iri "http://example.org/people"), []⟩])) :
    PredicateWritten notedContext friendSite text friendQuad ∧
      GraphWritten notedContext friendSite "ex:people" friendQuad := by
  obtain ⟨entry, compiled, parts⟩ := Option.map_eq_some_iff.mp given
  simp only [Prod.mk.injEq] at parts
  obtain ⟨own, objects, graphs⟩ := parts
  have level : agesMap.graphLevel entry = [⟨.constant (.iri "http://example.org/people"), []⟩] := by
    rw [CompiledMap.graphLevel, graphs]
    rfl
  have emitted : friendSite.Emits agesMap entry friendQuad := by
    refine ⟨by decide +kernel, own, ?_, ?_⟩
    · exact objects ▸ List.mem_singleton_self _
    · rw [level]
      exact List.mem_singleton_self _
  have people : notedContext.template "ex:people" = .ok (.constant "ex:people") := optionOk.mp (by decide +kernel)
  have named : CompiledTerm.iri (.constant "ex:people") notedContext.resolver =
      .ok ⟨.constant (.iri "http://example.org/people"), []⟩ := optionOk.mp (by decide +kernel)
  have constant : (Template.constant predicate).isConstant := by
    rw [← Template.constantWhole, Template.constantText]
    rfl
  constructor
  · exact .intro (optionOk.mp read) constant rfl (optionOk.mp compiled) emitted
  · exact .intro people (by decide +kernel) named (level ▸ List.mem_singleton_self _) rfl (.direct emitted) rfl

theorem friendPasses : ∃ spec condition filter, build ⟨false⟩ (notedFriends "ex:friend") = .ok spec ∧
    joinCondition (contextOf spec) "note" (friendsOnly "ex:friend") = .ok (condition, filter) ∧
    PredicateWritten (contextOf spec) friendSite "ex:friend" friendQuad ∧
    GraphWritten (contextOf spec) friendSite "ex:people" friendQuad ∧
    QuoteFilter.passes filter.predicates friendQuad.predicate.iri? ∧
    QuoteFilter.passes filter.graphs friendQuad.graph := by
  obtain ⟨spec, built, context, resolver⟩ :
      ∃ spec, build ⟨false⟩ (notedFriends "ex:friend") = .ok spec ∧ contextOf spec = notedContext ∧
        resolverOf spec .default = notedContext.resolver := notedRead (by decide +kernel)
  obtain ⟨⟨condition, filter⟩, read⟩ :
      ∃ read, joinCondition (contextOf spec) "note" (friendsOnly "ex:friend") = .ok read :=
    failureNone.mp (by rw [context]; decide +kernel)
  obtain ⟨predicate, graph⟩ : PredicateWritten (contextOf spec) friendSite "ex:friend" friendQuad ∧
      GraphWritten (contextOf spec) friendSite "ex:people" friendQuad :=
    context ▸ friendWritten "ex:friend" (by decide +kernel) (by decide +kernel)
  obtain ⟨_, _, _, all⟩ := filtersMeanTexts built
  have passes := all .default friendSite resolver.symm "note" _ condition filter read
  have noType : "ex:friend" = "a" → spec.prefixes.lookup "http" = none := fun type => absurd type (by decide)
  exact ⟨spec, condition, filter, built, read, predicate, graph,
    ((passes "ex:friend" friendQuad).1 (by decide +kernel) predicate).2 (by decide +kernel) noType,
    ((passes "ex:people" friendQuad).2 (by decide +kernel) graph).2 (by decide +kernel) (by decide)⟩

theorem externalUnfiltered : ∃ spec condition filter, build ⟨false⟩ (notedFriends "$(_ns)friend") = .ok spec ∧
    joinCondition (contextOf spec) "note" (friendsOnly "$(_ns)friend") = .ok (condition, filter) ∧
    filterTexts "note" .predicates (friendsOnly "$(_ns)friend") = ["$(_ns)friend"] ∧
    PredicateWritten (contextOf spec) friendSite "$(_ns)friend" friendQuad ∧
    ¬ QuoteFilter.passes filter.predicates friendQuad.predicate.iri? := by
  obtain ⟨spec, built, context, _⟩ :
      ∃ spec, build ⟨false⟩ (notedFriends "$(_ns)friend") = .ok spec ∧ contextOf spec = notedContext ∧
        resolverOf spec .default = notedContext.resolver := notedRead (by decide +kernel)
  obtain ⟨⟨condition, filter⟩, read⟩ :
      ∃ read, joinCondition (contextOf spec) "note" (friendsOnly "$(_ns)friend") = .ok read :=
    failureNone.mp (by rw [context]; decide +kernel)
  have alone : filterTexts "note" .predicates (friendsOnly "$(_ns)friend") = ["$(_ns)friend"] := by decide +kernel
  have written : PredicateWritten (contextOf spec) friendSite "$(_ns)friend" friendQuad :=
    context ▸ (friendWritten "http://example.org/friend" (by decide +kernel) (by decide +kernel)).1
  have only := oneText (alone ▸ (filterRead read).1) "http://example.org/friend"
  have apart : some "http://example.org/friend" ≠ (contextOf spec).filterIri? "$(_ns)friend" := by
    rw [context]
    decide +kernel
  exact ⟨spec, condition, filter, built, read, alone, written, fun passes => apart (only.mp passes)⟩

end TabularRdf.Document
