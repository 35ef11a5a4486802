import TabularRdf.Proofs.TemplateOrigins
import TabularRdf.Proofs.WellFormedQuads

/-! Where the terms of a run come from: a template of a map, or a quad that another map has put out. What the
templates of all maps give, and quoting keeps, is true of every term of every quad. -/
namespace TabularRdf.Rdf

structure Quad.Each (P : Term → Prop) (q : Quad) : Prop where
  subject : P q.subject
  predicate : P q.predicate
  object : P q.object
  graph : ∀ g, q.graph = some g → P (.iri g)

end TabularRdf.Rdf

namespace TabularRdf.Mapping

def ObjectTerm.ofIri (t : Template) : ObjectTerm := ⟨t, .iri, none, none⟩

def PredicateObject.written (po : PredicateObject) : List ObjectTerm :=
  .ofIri po.predicate :: (po.object.term?.toList ++ (po.inverse.toList ++ po.graphs).map .ofIri)

def TriplesMap.written (m : TriplesMap) : List ObjectTerm :=
  (m.subject.templates ++ m.subject.graphs ++ m.graphs).map .ofIri ++ m.predicateObjects.flatMap PredicateObject.written

theorem writtenTemplate {m : TriplesMap} {object : ObjectTerm} (written : object ∈ m.written) :
    object.template ∈ m.templates := by
  rcases List.mem_append.mp written with level | entry
  · obtain ⟨t, listed, rfl⟩ := List.mem_map.mp level
    exact List.mem_append_left _ listed
  · obtain ⟨po, listed, inside⟩ := List.mem_flatMap.mp entry
    refine List.mem_append_right _ (List.mem_flatMap.mpr ⟨po, listed, ?_⟩)
    unfold PredicateObject.templates
    rcases List.mem_cons.mp inside with rfl | rest
    · exact List.mem_cons_self
    · refine List.mem_cons_of_mem _ ?_
      rw [List.append_assoc]
      rcases List.mem_append.mp rest with term | iri
      · refine List.mem_append_left _ ?_
        cases same : po.object <;> rw [same] at term <;> cases term
        · exact List.mem_cons_self
        · contradiction
      · obtain ⟨t, named, rfl⟩ := List.mem_map.mp iri
        exact List.mem_append_right _ named

end TabularRdf.Mapping

namespace TabularRdf.Generation
open Iri Mapping Rdf Loading

def CompiledObject.terms : CompiledObject → List CompiledTerm
  | .term t => [t]
  | .reference _ | .quoted _ | .function => []

def CompiledEntry.terms (entry : CompiledEntry) : List CompiledTerm :=
  entry.predicate :: (entry.object.terms ++ entry.inverse.toList ++ entry.graphs)

def CompiledMap.terms (map : CompiledMap) : List CompiledTerm :=
  map.subjectTerms ++ map.subjectGraphs ++ map.mapGraphs ++ map.entries.flatMap CompiledEntry.terms

section

variable {resolver : Resolver}

theorem irisFrom {templates : List Template} {terms : List CompiledTerm}
    (compiled : compileIris templates resolver = .ok terms) :
    ∀ t ∈ terms, ∃ o ∈ templates.map .ofIri, CompiledTerm.object o resolver = .ok t := by
  intro t mem
  obtain ⟨template, listed, one⟩ := mappedOrigin compiled mem
  exact ⟨.ofIri template, List.mem_map_of_mem listed, one⟩

theorem objectFrom {object : ObjectSpec} {compiled : CompiledObject}
    (done : CompiledObject.compile object resolver = .ok compiled) :
    ∀ t ∈ compiled.terms, ∃ o ∈ object.term?.toList, CompiledTerm.object o resolver = .ok t := by
  cases object with
  | term written =>
    obtain ⟨t, one, same⟩ := boundOk.mp done
    cases pureOk.mp same
    exact List.forall_mem_singleton.mpr ⟨written, List.mem_singleton_self _, one⟩
  | _ =>
    cases pureOk.mp done
    exact List.forall_mem_nil _

theorem entryFrom {po : PredicateObject} {entry : CompiledEntry}
    (compiled : CompiledEntry.compile resolver po = .ok entry) :
    ∀ t ∈ entry.terms, ∃ o ∈ po.written, CompiledTerm.object o resolver = .ok t := by
  obtain ⟨predicate, inverses, graphs⟩ := entryParts compiled
  simp only [CompiledEntry.terms, List.forall_mem_cons, List.forall_mem_append]
  refine ⟨⟨_, List.mem_cons_self, predicate⟩, ⟨?_, ?_⟩, ?_⟩
  · intro t mem
    obtain ⟨o, listed, one⟩ := objectFrom (compiledObject compiled) t mem
    exact ⟨o, List.mem_cons_of_mem _ (List.mem_append_left _ listed), one⟩
  · intro t mem
    obtain ⟨template, written, one⟩ := givenOrigin inverses (Option.mem_toList.mp mem)
    have listed : template ∈ po.inverse.toList ++ po.graphs := List.mem_append_left _ (Option.mem_toList.mpr written)
    exact ⟨.ofIri template, List.mem_cons_of_mem _ (List.mem_append_right _ (List.mem_map_of_mem listed)), one⟩
  · intro t mem
    obtain ⟨o, listed, one⟩ := irisFrom graphs t mem
    have inside := List.map_subset ObjectTerm.ofIri (List.subset_append_right po.inverse.toList po.graphs) listed
    exact ⟨o, List.mem_cons_of_mem _ (List.mem_append_right _ inside), one⟩

theorem mapFrom {m : TriplesMap} {map : CompiledMap} (compiled : CompiledMap.compile m resolver = .ok map) :
    ∀ t ∈ map.terms, ∃ o ∈ m.written, CompiledTerm.object o resolver = .ok t := by
  obtain ⟨subjects, mapped⟩ := compiledParts compiled
  obtain ⟨subjectGraphs, mapGraphs⟩ := levelsCompiled compiled
  have level {templates : List Template} {terms : List CompiledTerm}
      (whole : compileIris templates resolver = .ok terms)
      (inside : templates ⊆ m.subject.templates ++ m.subject.graphs ++ m.graphs) :
      ∀ t ∈ terms, ∃ o ∈ m.written, CompiledTerm.object o resolver = .ok t := by
    intro t mem
    obtain ⟨o, listed, one⟩ := irisFrom whole t mem
    exact ⟨o, List.mem_append_left _ (List.map_subset _ inside listed), one⟩
  simp only [CompiledMap.terms, List.forall_mem_append, List.forall_mem_flatMap]
  refine ⟨⟨⟨?_, level subjectGraphs (by simp)⟩, level mapGraphs (by simp)⟩, ?_⟩
  · unfold CompiledMap.subjectTerms
    split
    · rename_i terms same
      rw [same] at subjects
      unfold CompiledSubjects.compile at subjects
      split at subjects
      · cases pureOk.mp subjects
      · obtain ⟨found, whole, made⟩ := boundOk.mp subjects
        cases pureOk.mp made
        exact level whole (by simp)
    · exact List.forall_mem_nil _
  · intro entry listed t mem
    obtain ⟨po, written, one⟩ := mappedOrigin mapped listed
    obtain ⟨o, inside, made⟩ := entryFrom one t mem
    exact ⟨o, List.mem_append_right _ (List.mem_flatMap.mpr ⟨po, written, inside⟩), made⟩

end

def CompiledTerm.Gives (resolver : Resolver) (table : Table) (P : Term → Prop) (t : CompiledTerm) : Prop :=
  ∀ row term, t.resolve resolver (Row.ofTable table row) = .ok term → P term

def EachOutput (P : Term → Prop) (outputs : Named MapOutput) : Prop :=
  ∀ name output, outputs.lookup name = some output → ∀ quad ∈ output.quads, quad.Each P

structure JoinContext.Each (P : Term → Prop) (context : JoinContext) : Prop where
  outputs : EachOutput P context.outputs
  subjects : ∀ key index, context.subjectIndexes.lookup key = some index →
    ∀ position, ∀ t ∈ index.subjectsAt position, P t

structure RowEntry.Each (P : Term → Prop) (entry : RowEntry) : Prop where
  predicate : P entry.predicate
  objects : ∀ t ∈ entry.objects, P t
  inverse : ∀ i, entry.inverse = some i → P i
  graphs : ∀ g, some g ∈ entry.graphs → P (.iri g)

section

variable {P : Term → Prop} {resolver : Resolver} {table : Table} {row : Nat}

theorem boundGiven {terms : List CompiledTerm} (gives : ∀ t ∈ terms, t.Gives resolver table P) {t : Term}
    (mem : t ∈ (termsAt resolver row (terms.map (BoundTerm.ofTable table))).1) : P t := by
  obtain ⟨_, bound, built⟩ := memTerms.mp mem
  obtain ⟨term, listed, rfl⟩ := List.mem_map.mp bound
  exact gives term listed row t ((term.atRowBind resolver table row).symm.trans built)

theorem graphGiven {terms : List CompiledTerm} (gives : ∀ t ∈ terms, t.Gives resolver table P) {g : String}
    (mem : some g ∈ (graphsAt resolver row (terms.map (BoundTerm.ofTable table))).1) : P (.iri g) := by
  unfold graphsAt at mem
  split at mem
  · simp at mem
  · obtain ⟨t, inside, given⟩ := List.mem_filterMap.mp mem
    have whole := boundGiven gives inside
    cases t <;> simp only [Term.iri?, Option.map_some, Option.map_none, Option.some.injEq, reduceCtorEq] at given
    exact given ▸ whole

theorem quadsGiven {entry : RowEntry} (each : entry.Each P) {subject : Term} (given : P subject) {quad : Quad}
    (mem : quad ∈ entry.quads subject) : quad.Each P := by
  obtain ⟨object, listed, inside⟩ := List.mem_flatMap.mp mem
  obtain ⟨graph, named, inside⟩ := List.mem_flatMap.mp inside
  have graphs (g : String) (same : graph = some g) : P (.iri g) := each.graphs g (same ▸ named)
  rcases List.mem_cons.mp inside with rfl | inverted
  · exact ⟨given, each.predicate, each.objects object listed, graphs⟩
  · obtain ⟨i, found, rfl⟩ := List.mem_map.mp inverted
    exact ⟨each.objects object listed, each.inverse i (Option.mem_toList.mp found), given, graphs⟩

variable (quoting : ∀ s p o, P s → P p → P o → P (.quoted s p o))
include quoting

theorem quotedGiven {output : MapOutput} (each : ∀ quad ∈ output.quads, quad.Each P) {positions : List Position}
    {filter : QuoteFilter} {t : Term} (mem : t ∈ output.quoteRows positions filter) : P t := by
  obtain ⟨position, _, inside⟩ := List.mem_flatMap.mp mem
  obtain ⟨quad, emitted, made⟩ := List.mem_filterMap.mp inside
  split at made
  · contradiction
  · obtain ⟨_, _, _, rfl⟩ := Term.quotedExactly.mp (optionOk.mp made)
    have parts := each quad (emittedQuad emitted)
    exact quoting _ _ _ parts.subject parts.predicate parts.object

variable {context : JoinContext} (met : context.Each P) {position : Position}
include met

theorem quotedTermGiven {q : QuotedRef} {probe : Probe} {t : Term}
    (mem : t ∈ context.quotedTerms q probe position) : P t := by
  unfold JoinContext.quotedTerms at mem
  split at mem
  · contradiction
  · rename_i output found
    have each := met.outputs _ _ found
    split at mem
    · exact quotedGiven quoting each mem
    · split at mem
      · exact quotedGiven quoting each mem
      · contradiction
    · contradiction

omit quoting in
theorem referenceGiven {r : MappingRef} {probe : Probe} {t : Term}
    (mem : t ∈ context.referencedSubjects r probe position) : P t := by
  unfold JoinContext.referencedSubjects at mem
  split at mem
  · contradiction
  · rename_i index found
    have each := met.subjects _ _ found
    split at mem
    · exact each _ t mem
    · split at mem
      · unfold SubjectIndex.byKey at mem
        split at mem
        · obtain ⟨other, _, inside⟩ := List.mem_flatMap.mp mem
          exact each other t inside
        · contradiction
      · contradiction
    · contradiction

theorem subjectGiven {map : CompiledMap} (gives : ∀ t ∈ map.subjectTerms, t.Gives resolver table P) {t : Term}
    (mem : t ∈ (subjectsAt resolver context position (map.subjects.bind table).1).1) : P t := by
  unfold CompiledMap.subjectTerms at gives
  cases kind : map.subjects with
  | templates terms =>
    rw [kind] at mem gives
    exact boundGiven gives mem
  | quoted q =>
    rw [kind] at mem
    exact quotedTermGiven quoting met mem

theorem objectGiven {object : CompiledObject} (gives : ∀ t ∈ object.terms, t.Gives resolver table P) {t : Term}
    (mem : t ∈ (objectsAt resolver context position (object.bind table).1).1) : P t := by
  cases object with
  | term term => exact boundGiven gives mem
  | reference r => exact referenceGiven met mem
  | quoted q => exact quotedTermGiven quoting met mem
  | function => contradiction

theorem entryGiven {entry : CompiledEntry} (gives : ∀ t ∈ entry.terms, t.Gives resolver table P)
    {inherited : List (Option String)} (graphs : ∀ g, some g ∈ inherited → P (.iri g)) {found : RowEntry}
    (given : (entryAt resolver context position inherited (entry.bind table).1).1 = some found) :
    found.Each P := by
  obtain ⟨ofPredicate, rest⟩ := List.forall_mem_cons.mp gives
  simp only [List.mem_append, or_imp, forall_and] at rest
  obtain ⟨⟨ofObject, ofInverse⟩, ofGraphs⟩ := rest
  unfold entryAt at given
  split at given
  · contradiction
  · rename_i predicate built
    dsimp only at given
    split at given
    · contradiction
    · cases Option.some.inj given
      have resolved := (entry.predicate.atRowBind resolver table position.2).symm.trans built
      refine ⟨ofPredicate _ _ resolved, fun t mem => objectGiven quoting met ofObject mem, ?_, ?_⟩
      · intro i first
        have inside : i ∈ (termsAt resolver position.2 (entry.inverse.map (BoundTerm.ofTable table)).toList).1 :=
          List.mem_of_head? first
        rw [Option.toList_map] at inside
        exact boundGiven ofInverse inside
      · intro g mem
        dsimp only at mem
        split at mem
        · exact graphs g mem
        · exact graphGiven ofGraphs mem

theorem rowGiven {map : CompiledMap} (gives : ∀ t ∈ map.terms, t.Gives resolver table P) {quad : Quad}
    (mem : quad ∈ (rowAt resolver context (map.bind table).1 position).1) : quad.Each P := by
  simp only [CompiledMap.terms, List.mem_append, or_imp, forall_and] at gives
  obtain ⟨⟨⟨ofSubjects, ofSubjectGraphs⟩, ofMapGraphs⟩, ofEntries⟩ := gives
  unfold rowAt at mem
  dsimp only at mem
  split at mem
  · contradiction
  · obtain ⟨subject, given, inside⟩ := List.mem_flatMap.mp mem
    obtain ⟨row, kept, inside⟩ := List.mem_flatMap.mp inside
    obtain ⟨_, bound, rowGiven⟩ := List.mem_filterMap.mp kept
    obtain ⟨_, listed, rfl⟩ := List.mem_map.mp bound
    obtain ⟨_, source, rfl⟩ := List.mem_map.mp listed
    obtain ⟨entry, written, rfl⟩ := List.mem_map.mp source
    have ofEntry (t : CompiledTerm) (mem : t ∈ entry.terms) : t.Gives resolver table P :=
      ofEntries t (List.mem_flatMap.mpr ⟨entry, written, mem⟩)
    refine quadsGiven (entryGiven quoting met ofEntry (fun g named => ?_) rowGiven)
      (subjectGiven quoting met ofSubjects given) inside
    split at named
    · exact graphGiven ofMapGraphs named
    · exact graphGiven ofSubjectGraphs named

theorem mapGiven {map : CompiledMap} {tables : List Table}
    (gives : ∀ table ∈ tables, ∀ t ∈ map.terms, t.Gives resolver table P) :
    ∀ quad ∈ (generateMap map tables resolver context).quads, quad.Each P := by
  intro quad mem
  simp only [generateMap, List.mem_toArray, List.mem_flatMap] at mem
  obtain ⟨output, listed, mem⟩ := mem
  obtain ⟨⟨table, t⟩, numbered, rfl⟩ := List.mem_map.mp listed
  have there : table ∈ tables := List.mem_of_getElem? (List.mem_zipIdx_iff_getElem?.mp numbered)
  obtain ⟨quads, row, inside⟩ := List.mem_flatten.mp mem
  simp only [generateTable, List.map_map, List.mem_map] at row
  obtain ⟨r, _, rfl⟩ := row
  exact rowGiven quoting met (gives table there) inside

end

section

variable {P : Term → Prop} {spec : Specification} {options : GenerationOptions} {provider : TableProvider}
  {setup : Setup} (quoting : ∀ s p o, P s → P p → P o → P (.quoted s p o)) (made : setup.Made spec options provider)
  (gives : ∀ name ready, setup.prepared.lookup name = some ready → ∀ table ∈ ready.tables,
    ∀ t ∈ ready.map.terms, t.Gives setup.resolver table P)
include made gives

theorem indexGiven {key : IndexKey} {index : SubjectIndex} (found : setup.subjectIndexes.lookup key = some index)
    (position : Position) : ∀ t ∈ index.subjectsAt position, P t := by
  rw [subjectIndexOrigin made found]
  intro t mem
  unfold subjectIndexFor at mem
  rw [subjectsBuilt] at mem
  unfold subjectsGiven at mem
  split at mem
  · contradiction
  · rename_i table there
    split at mem
    · obtain ⟨term, listed, resolved⟩ := List.mem_filterMap.mp mem
      cases parent : setup.prepared.lookup key.1 with
      | none => simp [parent] at listed
      | some ready =>
        rw [parent] at listed there
        have ofMap : term ∈ ready.map.terms := by
          simp only [CompiledMap.terms, List.append_assoc]
          exact List.mem_append_left _ listed
        exact gives _ ready parent table (List.mem_of_getElem? there) term ofMap _ _ (optionOk.mp resolved)
    · contradiction

include quoting

theorem levelGiven {seen outputs : Named MapOutput} {level : List String} (before : EachOutput P seen)
    (ran : setup.runLevel seen level = .ok outputs) : EachOutput P outputs := by
  have met : (setup.context seen).Each P := ⟨before, fun _ _ found => indexGiven made gives found⟩
  obtain ⟨results, mapped, _, rfl⟩ := levelRan ran
  intro name output found
  rcases Named.setAllOrigin found with new | old
  · obtain ⟨_, _, one⟩ := mappedOrigin mapped new
    obtain ⟨ready, prepared, same⟩ := mapRan one
    cases same
    exact mapGiven quoting met (gives _ ready prepared)
  · exact before name output old

theorem levelsGiven {levels : List (List String)} {outputs : Named MapOutput}
    (ran : setup.runLevels levels = .ok outputs) : EachOutput P outputs := by
  -- on the levels: a map quotes outputs of earlier ones, of which it is known already
  refine foldedKeeps ran (P := EachOutput P) ?_ fun _ _ _ _ before => levelGiven quoting made gives before
  intro _ _ impossible
  contradiction

end

section

variable {P : Term → Prop} {resolver : Resolver} {authors : List Author}

theorem descriptionGiven {options : GenerationOptions}
    (vocabulary : ∀ iri ∈ [Vocabulary.rdfType, Vocabulary.dctTitle, Vocabulary.dctCreator, Vocabulary.dcatDataset],
      P (.iri iri)) (plain : ∀ value, P (.plain value))
    (named : ∀ metadata ∈ options.dataset, ∀ iri, resolver.expand metadata.iri = .ok iri → P (.iri iri))
    (creators : options.dataset.isSome → ∀ author ∈ authors, ∀ iri, creatorOf author = some (.iri iri) → P (.iri iri))
    {quads : List Quad} (made : descriptionOf options authors resolver = .ok quads) : ∀ quad ∈ quads, quad.Each P := by
  intro quad mem
  obtain ⟨metadata, asked, iri, predicate, object, rfl, expanded, known, origin⟩ := descriptionOrigin made quad mem
  refine ⟨named metadata asked iri expanded, vocabulary predicate ?_, ?_, fun _ impossible => by cases impossible⟩
  · exact List.mem_append_left [Vocabulary.dcatDataset] known
  · rcases origin with rfl | ⟨text, rfl⟩ | ⟨author, listed, name, rfl, given⟩
    · exact vocabulary _ (by simp)
    · exact plain text
    · exact creators (Option.isSome_of_mem asked) author listed name given

end

theorem outcomeGiven {P : Term → Prop} (quoting : ∀ s p o, P s → P p → P o → P (.quoted s p o)) {spec : Specification}
    {options : GenerationOptions} {provider : TableProvider} {cancelled : Bool}
    (described : ∀ quads, descriptionOf options spec.authors (resolverOf spec options) = .ok quads →
      ∀ quad ∈ quads, quad.Each P)
    (gives : ∀ m ∈ spec.maps, ∀ map, CompiledMap.compile m (resolverOf spec options) = .ok map →
      ∀ source ∈ m.sources, ∀ table, provider source = some table →
        ∀ t ∈ map.terms, t.Gives (resolverOf spec options) table P)
    {outcome : Outcome} (ran : run spec options provider cancelled = .ok outcome) :
    ∀ quad ∈ outcome.quads, quad.Each P := by
  simp only [run, boundOk, pureOk] at ran
  obtain ⟨setup, prepared, description, asked, outputs, levels, rfl⟩ := ran
  have made := setupMade prepared
  rw [← made.resolver] at described gives
  have each : EachOutput P outputs := by
    refine levelsGiven quoting made (fun name ready found table there t mem => ?_) levels
    obtain ⟨m, listed, _, done⟩ := setupOrigin made found
    obtain ⟨fetched, compiled⟩ := prepareOk done
    obtain ⟨source, read, given⟩ := mappedOrigin fetched there
    cases provided : provider source with
    | none => simp [provided] at given
    | some other =>
      rw [provided] at given
      cases Except.ok.inj given
      exact gives m listed _ compiled source read table provided t mem
  intro quad mem
  rcases List.mem_append.mp mem with first | last
  · exact described description asked quad first
  · obtain ⟨output, ordered, inside⟩ := List.mem_flatMap.mp last
    obtain ⟨name, _, found⟩ := List.mem_filterMap.mp ordered
    exact each name output found quad (Array.mem_toList_iff.mp inside)

end TabularRdf.Generation
