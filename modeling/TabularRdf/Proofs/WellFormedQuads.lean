import TabularRdf.Proofs.CompiledForms
import TabularRdf.Proofs.JoinRows
import TabularRdf.Proofs.Preparation
import TabularRdf.Proofs.RunStages

/-! Every quad of a run is well-formed. A row keeps this when the outputs that it can quote and the subjects
that it can refer to are well-formed already; by induction on the levels they always are. -/
namespace TabularRdf.Generation
open Iri Mapping Rdf Loading

def MapOutput.WellFormed (output : MapOutput) : Prop := ∀ quad ∈ output.quads, quad.WellFormed

def SubjectIndex.Iris (index : SubjectIndex) : Prop := ∀ position, ∀ t ∈ index.subjectsAt position, t.isIri

structure JoinContext.Sound (context : JoinContext) : Prop where
  outputs : ∀ name output, context.outputs.lookup name = some output → output.WellFormed
  subjects : ∀ key index, context.subjectIndexes.lookup key = some index → index.Iris

theorem emittedQuad {output : MapOutput} {position : Position} {quad : Quad}
    (mem : quad ∈ output.rowQuads position) : quad ∈ output.quads := by
  unfold MapOutput.rowQuads at mem
  split at mem
  · rw [Array.toList_extract] at mem
    exact Array.mem_toList_iff.mp (List.mem_of_mem_drop (List.mem_of_mem_take mem))
  · contradiction

theorem quotedFormed {output : MapOutput} (formed : output.WellFormed) {positions : List Position}
    {filter : QuoteFilter} {t : Term} (mem : t ∈ output.quoteRows positions filter) :
    t.isQuoted ∧ t.WellFormed := by
  obtain ⟨position, _, inside⟩ := List.mem_flatMap.mp mem
  obtain ⟨quad, emitted, made⟩ := List.mem_filterMap.mp inside
  split at made
  · contradiction
  · exact Quad.quotedResource (formed quad (emittedQuad emitted)) (optionOk.mp made)

section

variable {resolver : Resolver} {context : JoinContext} {position : Position} {table : Table}

theorem memTerms {row : Nat} {terms : List BoundTerm} {t : Term} :
    t ∈ (termsAt resolver row terms).1 ↔ ∃ b ∈ terms, b.atRow resolver row = .ok t := by
  simp only [termsAt, List.mem_filterMap, List.mem_map]
  constructor
  · rintro ⟨_, ⟨b, mem, rfl⟩, given⟩
    exact ⟨b, mem, optionOk.mp given⟩
  · rintro ⟨b, mem, given⟩
    exact ⟨_, ⟨b, mem, rfl⟩, optionOk.mpr given⟩

variable (sound : context.Sound)
include sound

theorem quotedMet {q : QuotedRef} {probe : Probe} {t : Term}
    (mem : t ∈ context.quotedTerms q probe position) : t.isQuoted ∧ t.WellFormed := by
  unfold JoinContext.quotedTerms at mem
  split at mem
  · contradiction
  · rename_i output found
    have formed := sound.outputs _ _ found
    split at mem
    · exact quotedFormed formed mem
    · split at mem
      · exact quotedFormed formed mem
      · contradiction
    · contradiction

theorem subjectMet {r : MappingRef} {probe : Probe} {t : Term}
    (mem : t ∈ context.referencedSubjects r probe position) : t.isIri := by
  unfold JoinContext.referencedSubjects at mem
  split at mem
  · contradiction
  · rename_i index found
    have iris := sound.subjects _ _ found
    split at mem
    · exact iris _ t mem
    · split at mem
      · unfold SubjectIndex.byKey at mem
        split at mem
        · obtain ⟨other, _, inside⟩ := List.mem_flatMap.mp mem
          exact iris other t inside
        · contradiction
      · contradiction
    · contradiction

theorem subjectResource {map : CompiledMap} (formed : map.Formed) {t : Term}
    (mem : t ∈ (subjectsAt resolver context position (map.subjects.bind table).1).1) : t.Resource := by
  have iris := formed.subjects
  unfold CompiledMap.subjectTerms at iris
  cases kind : map.subjects with
  | templates terms =>
    rw [kind] at mem iris
    obtain ⟨_, bound, built⟩ := memTerms.mp mem
    obtain ⟨term, listed, rfl⟩ := List.mem_map.mp bound
    exact Term.iriResource (CompiledTerm.builtIri (iris term listed) built)
  | quoted q =>
    rw [kind] at mem
    obtain ⟨quoted, whole⟩ := quotedMet sound mem
    exact ⟨.inr quoted, whole⟩

theorem objectFormed {object : CompiledObject} {inverted : Prop} (formed : object.Formed inverted) {t : Term}
    (mem : t ∈ (objectsAt resolver context position (object.bind table).1).1) :
    t.WellFormed ∧ (inverted → t.Resource) := by
  cases object with
  | term term =>
    obtain ⟨_, bound, built⟩ := memTerms.mp mem
    cases List.mem_singleton.mp bound
    exact ⟨(CompiledTerm.builtPlain formed.1 built).2,
      fun holds => Term.iriResource (CompiledTerm.builtIri (formed.2 holds) built)⟩
  | reference r =>
    have resource := Term.iriResource (subjectMet sound mem)
    exact ⟨resource.2, fun _ => resource⟩
  | quoted q =>
    obtain ⟨quoted, whole⟩ := quotedMet sound mem
    exact ⟨whole, fun _ => ⟨.inr quoted, whole⟩⟩
  | function => contradiction

structure RowEntry.Formed (entry : RowEntry) : Prop where
  predicate : entry.predicate.isIri
  objects : ∀ t ∈ entry.objects, t.WellFormed
  inverse : ∀ i, entry.inverse = some i → i.isIri ∧ ∀ t ∈ entry.objects, t.Resource

theorem entryRowFormed {entry : CompiledEntry} (formed : entry.Formed) {inherited : List (Option String)}
    {row : RowEntry}
    (given : (entryAt resolver context position inherited (entry.bind table).1).1 = some row) :
    row.Formed := by
  unfold entryAt at given
  split at given
  · contradiction
  · rename_i predicate built
    dsimp only at given
    split at given
    · contradiction
    · have objects {t : Term}
          (mem : t ∈ (objectsAt resolver context position (entry.object.bind table).1).1) :=
        objectFormed sound formed.object mem
      cases Option.some.inj given
      refine ⟨CompiledTerm.builtIri formed.predicate built, fun t mem => (objects mem).1, ?_⟩
      intro i first
      obtain ⟨_, bound, inverted⟩ := memTerms.mp (List.mem_of_head? first)
      obtain ⟨t, written, rfl⟩ := Option.map_eq_some_iff.mp (Option.mem_toList.mp bound)
      exact ⟨CompiledTerm.builtIri (formed.inverse t written) inverted,
        fun t mem => (objects mem).2 (by simp [written])⟩

omit sound in
theorem entryQuads {row : RowEntry} (formed : row.Formed) {subject : Term} (resource : subject.Resource)
    {quad : Quad} (mem : quad ∈ row.quads subject) : quad.WellFormed := by
  obtain ⟨object, listed, inside⟩ := List.mem_flatMap.mp mem
  obtain ⟨graph, _, inside⟩ := List.mem_flatMap.mp inside
  rcases List.mem_cons.mp inside with rfl | inverted
  · exact ⟨resource, formed.predicate, formed.objects object listed⟩
  · obtain ⟨i, found, rfl⟩ := List.mem_map.mp inverted
    obtain ⟨iri, resources⟩ := formed.inverse i (Option.mem_toList.mp found)
    exact ⟨resources object listed, iri, resource.2⟩

theorem rowFormed {map : CompiledMap} (formed : map.Formed) {quad : Quad}
    (mem : quad ∈ (rowAt resolver context (map.bind table).1 position).1) : quad.WellFormed := by
  unfold rowAt at mem
  dsimp only at mem
  split at mem
  · contradiction
  · obtain ⟨subject, given, inside⟩ := List.mem_flatMap.mp mem
    obtain ⟨row, kept, inside⟩ := List.mem_flatMap.mp inside
    obtain ⟨_, bound, rowGiven⟩ := List.mem_filterMap.mp kept
    obtain ⟨_, listed, rfl⟩ := List.mem_map.mp bound
    obtain ⟨_, source, rfl⟩ := List.mem_map.mp listed
    obtain ⟨entry, written, rfl⟩ := List.mem_map.mp source
    exact entryQuads (entryRowFormed sound (formed.entries entry written) rowGiven)
      (subjectResource sound formed given) inside

theorem mapFormed {map : CompiledMap} (formed : map.Formed) (tables : List Table) :
    (generateMap map tables resolver context).WellFormed := by
  intro quad mem
  simp only [generateMap, List.mem_toArray, List.mem_flatMap] at mem
  obtain ⟨output, listed, mem⟩ := mem
  obtain ⟨⟨table, t⟩, _, rfl⟩ := List.mem_map.mp listed
  obtain ⟨quads, row, inside⟩ := List.mem_flatten.mp mem
  simp only [generateTable, List.map_map, List.mem_map] at row
  obtain ⟨r, _, rfl⟩ := row
  exact rowFormed sound formed inside

end

section

variable {spec : Specification} {options : GenerationOptions} {provider : TableProvider} {setup : Setup}

theorem readyFormed (formed : ∀ m ∈ spec.maps, m.Formed) (made : setup.Made spec options provider)
    {name : String} {ready : Prepared} (found : setup.prepared.lookup name = some ready) :
    ready.map.Formed := by
  obtain ⟨m, mem, _, done⟩ := setupOrigin made found
  exact mapCompiled (formed m mem) (prepareOk done).2

theorem indexIris (formed : ∀ m ∈ spec.maps, m.Formed) (made : setup.Made spec options provider)
    {key : IndexKey} {index : SubjectIndex} (found : setup.subjectIndexes.lookup key = some index) :
    index.Iris := by
  rw [subjectIndexOrigin made found]
  intro position t mem
  unfold subjectIndexFor at mem
  rw [subjectsBuilt] at mem
  unfold subjectsGiven at mem
  split at mem
  · contradiction
  · split at mem
    · obtain ⟨term, listed, resolved⟩ := List.mem_filterMap.mp mem
      cases parent : setup.prepared.lookup key.1 with
      | none => simp [parent] at listed
      | some ready =>
        rw [parent] at listed
        exact CompiledTerm.builtIri ((readyFormed formed made parent).subjects term listed)
          (optionOk.mp resolved)
    · contradiction

def Formed (outputs : Named MapOutput) : Prop :=
  ∀ name output, outputs.lookup name = some output → output.WellFormed

theorem levelFormed (formed : ∀ m ∈ spec.maps, m.Formed) (made : setup.Made spec options provider)
    {seen outputs : Named MapOutput} {level : List String} (before : Formed seen)
    (ran : setup.runLevel seen level = .ok outputs) : Formed outputs := by
  have sound : (setup.context seen).Sound := ⟨before, fun _ _ => indexIris formed made⟩
  obtain ⟨results, mapped, _, rfl⟩ := levelRan ran
  intro name output found
  rcases Named.setAllOrigin found with new | old
  · obtain ⟨_, _, one⟩ := mappedOrigin mapped new
    obtain ⟨ready, prepared, same⟩ := mapRan one
    cases same
    exact mapFormed sound (readyFormed formed made prepared) ready.tables
  · exact before name output old

theorem levelsFormed (formed : ∀ m ∈ spec.maps, m.Formed) (made : setup.Made spec options provider)
    {levels : List (List String)} {outputs : Named MapOutput}
    (ran : setup.runLevels levels = .ok outputs) : Formed outputs := by
  refine foldedKeeps ran (P := Formed) ?_ fun _ _ _ _ before => levelFormed formed made before
  intro _ _ impossible
  contradiction

theorem creatorForm {author : Author} {t : Term} (given : creatorOf author = some t) :
    (∃ text, t = .plain text) ∨ ∃ iri, t = .iri iri := by
  unfold creatorOf at given
  split at given <;> cases given
  · exact .inr ⟨_, rfl⟩
  · exact .inl ⟨_, rfl⟩
  · exact .inr ⟨_, rfl⟩
  · exact .inr ⟨_, rfl⟩

theorem descriptionOrigin {authors : List Author} {resolver : Resolver} {quads : List Quad}
    (made : descriptionOf options authors resolver = .ok quads) :
    ∀ quad ∈ quads, ∃ metadata ∈ options.dataset, ∃ iri predicate object,
      quad = ⟨.iri iri, .iri predicate, object, none⟩ ∧ resolver.expand metadata.iri = .ok iri ∧
      predicate ∈ [Vocabulary.rdfType, Vocabulary.dctTitle, Vocabulary.dctCreator] ∧
      (object = .iri Vocabulary.dcatDataset ∨ (∃ text, object = .plain text) ∨
        ∃ author ∈ authors, ∃ name, object = .iri name ∧ creatorOf author = some object) := by
  unfold descriptionOf at made
  split at made
  · rename_i metadata asked
    simp only [datasetQuads, boundOk, pureOk] at made
    obtain ⟨iri, named, rfl⟩ := made
    have expanded : resolver.expand metadata.iri = .ok iri := by
      cases done : resolver.expand metadata.iri <;> rw [done] at named <;> cases named
      rfl
    intro quad mem
    refine ⟨metadata, asked, iri, ?_⟩
    rcases List.mem_append.mp mem with first | last
    · rcases List.mem_cons.mp first with rfl | titled
      · exact ⟨_, _, rfl, expanded, by simp, .inl rfl⟩
      · obtain ⟨title, _, rfl⟩ := List.mem_map.mp titled
        exact ⟨_, _, rfl, expanded, by simp, .inr (.inl ⟨title, rfl⟩)⟩
    · obtain ⟨t, creator, rfl⟩ := List.mem_map.mp last
      obtain ⟨author, listed, given⟩ := List.mem_filterMap.mp creator
      refine ⟨_, t, rfl, expanded, by simp, .inr ?_⟩
      exact (creatorForm given).imp id fun ⟨name, same⟩ => ⟨author, listed, name, same, given⟩
  · cases made
    exact List.forall_mem_nil _

theorem descriptionFormed {authors : List Author} {resolver : Resolver} {quads : List Quad}
    (made : descriptionOf options authors resolver = .ok quads) : ∀ quad ∈ quads, quad.WellFormed := by
  intro quad mem
  obtain ⟨_, _, iri, predicate, object, rfl, _, _, origin⟩ := descriptionOrigin made quad mem
  refine ⟨Term.iriResource rfl, rfl, ?_⟩
  rcases origin with rfl | ⟨text, rfl⟩ | ⟨_, _, _, rfl, _⟩
  · trivial
  · exact Term.plainFormed text
  · trivial

theorem outcomeFormed (formed : ∀ m ∈ spec.maps, m.Formed) {cancelled : Bool} {outcome : Outcome}
    (ran : run spec options provider cancelled = .ok outcome) : ∀ quad ∈ outcome.quads, quad.WellFormed := by
  simp only [run, boundOk, pureOk] at ran
  obtain ⟨setup, made, description, described, outputs, levels, rfl⟩ := ran
  intro quad mem
  rcases List.mem_append.mp mem with first | last
  · exact descriptionFormed described quad first
  · obtain ⟨output, ordered, inside⟩ := List.mem_flatMap.mp last
    obtain ⟨name, _, found⟩ := List.mem_filterMap.mp ordered
    exact levelsFormed formed (setupMade made) levels name output found quad (Array.mem_toList_iff.mp inside)

end

end TabularRdf.Generation

namespace TabularRdf.Document
open Mapping Generation Loading

theorem runWellFormed {settings : BuildOptions} {document : Json} {spec : Specification}
    (built : build settings document = .ok spec) (options : GenerationOptions) (provider : TableProvider)
    (cancelled : Bool) :
    (∀ outcome, run spec options provider cancelled = .ok outcome →
      ∀ quad ∈ outcome.quads, quad.WellFormed) ∧
    ∀ setup levels outputs name output position,
      Setup.make spec options provider cancelled = .ok setup → setup.runLevels levels = .ok outputs →
      outputs.lookup name = some output → ∀ quad ∈ output.rowQuads position,
      quad.hasQuoted = false → ∃ t, quad.quote = .ok t := by
  obtain ⟨_, _, _, reading⟩ := buildReading built
  have formed := readingFormed reading
  refine ⟨fun outcome => outcomeFormed formed, ?_⟩
  intro setup levels outputs name output position made ran found quad emitted plain
  have whole := levelsFormed formed (setupMade made) ran name output found quad (emittedQuad emitted)
  exact ⟨_, Rdf.Quad.quotable whole plain⟩

def annotatedDocument : Json := .obj [("mappings", .obj [
  ("person", .obj [
    ("sources", .arr [.str "people.csv~csv"]),
    ("s", .str "http://example.org/$(id)"),
    ("po", .arr [.arr [.str "http://example.org/name", .str "$(name)"]])]),
  ("note", .obj [
    ("sources", .arr [.str "people.csv~csv"]),
    ("s", .obj [("quoted", .str "person")]),
    ("po", .arr [.arr [.str "http://example.org/by", .str "$(author)"]])])])]

def peopleTable : Table where
  schema := ⟨[⟨"id", .string, false⟩, ⟨"name", .string, false⟩, ⟨"author", .string, true⟩]⟩
  columns := [.string #[some "1"], .string #[some "Ann"], .string #[some "Bob"]]
  rows := 1

theorem annotatedWellFormed : ∃ spec outcome, build .default annotatedDocument = .ok spec ∧
    run spec .default (fun _ => some peopleTable) false = .ok outcome ∧ outcome.quads.length = 2 ∧
    ∀ quad ∈ outcome.quads, quad.WellFormed := by
  have two : ((build .default annotatedDocument).toOption.bind fun spec =>
      (run spec .default (fun _ => some peopleTable) false).toOption).map
        (fun outcome => outcome.quads.length) = some 2 := by decide +kernel
  obtain ⟨outcome, both, count⟩ := Option.map_eq_some_iff.mp two
  obtain ⟨spec, read, given⟩ := Option.bind_eq_some_iff.mp both
  have built := optionOk.mp read
  have ran := optionOk.mp given
  exact ⟨spec, outcome, built, ran, count, (runWellFormed built .default _ false).1 outcome ran⟩

end TabularRdf.Document
