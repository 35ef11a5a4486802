import TabularRdf.Document.Mapping
import TabularRdf.Proofs.Respelling
import TabularRdf.Proofs.RowProduct
import TabularRdf.Proofs.SubjectForms

/-! Several subjects of one mapping. Each of them gives the quads that it would give as the only subject, but the
graphs that stand beside one of them belong to all: they are the graphs of the subject level. -/
namespace TabularRdf.Generation
open Iri Mapping Rdf Loading

def CompiledMap.only (map : CompiledMap) (term : CompiledTerm) (graphs : List CompiledTerm) : CompiledMap :=
  { map with subjects := .templates [term], subjectGraphs := graphs }

def CompiledMap.Regraphed (map : CompiledMap) (graphs : List CompiledTerm) : Prop :=
  graphs = map.subjectGraphs ∨ ∀ entry ∈ map.entries, entry.graphs ≠ []

section

variable {map : CompiledMap} {parts : List (CompiledTerm × List CompiledTerm)}

theorem sharedLevelKept {graphs : List CompiledTerm} (same : map.Regraphed graphs) (term : CompiledTerm)
    {entry : CompiledEntry} (mem : entry ∈ map.entries) :
    (map.only term graphs).graphLevel entry = map.graphLevel entry := by
  rcases same with rfl | own
  · rfl
  · have declared : entry.graphs.isEmpty = false := List.isEmpty_eq_false_iff.mpr (own entry mem)
    simp only [CompiledMap.graphLevel, declared, Bool.false_eq_true, if_false]

namespace RowSite

variable (s : RowSite)

theorem entriesKept {graphs : List CompiledTerm} (same : map.Regraphed graphs) (term : CompiledTerm)
    (subject : Term) : (map.only term graphs).entries.flatMap (s.entryQuads (map.only term graphs) subject) =
      map.entries.flatMap (s.entryQuads map subject) := by
  refine List.flatMap_congr fun entry mem => ?_
  have level := sharedLevelKept same term mem
  simp only [entryQuads, level]

theorem subjectsSummed (templates : map.subjects = .templates (parts.map Prod.fst))
    (same : ∀ part ∈ parts, map.Regraphed part.2) :
    s.quads map = parts.flatMap fun part => s.quads (map.only part.1 part.2) := by
  have all : s.subjects map = parts.flatMap fun part => (s.term? part.1).toList := by
    simp only [subjects, templates, List.filterMap_eq_flatMap_toList, List.flatMap_map]
  rw [quads, all, List.flatMap_assoc]
  refine List.flatMap_congr fun part mem => ?_
  have one : s.subjects (map.only part.1 part.2) = (s.term? part.1).toList := by
    simp only [subjects, CompiledMap.only, List.filterMap_eq_flatMap_toList, List.flatMap_singleton]
  rw [quads, one]
  exact List.flatMap_congr fun subject _ => (s.entriesKept (same part mem) part.1 subject).symm

end RowSite

theorem rowsSummed (templates : map.subjects = .templates (parts.map Prod.fst))
    (same : ∀ part ∈ parts, map.Regraphed part.2) (tables : List Table) (resolver : Resolver)
    (joins : JoinContext) (position : Position) :
    (generateMap map tables resolver joins).rowQuads position = parts.flatMap fun part =>
      (generateMap (map.only part.1 part.2) tables resolver joins).rowQuads position := by
  simp only [rowQuadsEmitted, emitted]
  split
  · simp
  · rename_i table _
    split
    · have product (map : CompiledMap) := RowSite.rowProduct ⟨resolver, joins, table, position⟩ map
      simp only [product]
      exact RowSite.subjectsSummed _ templates same
    · simp

end

def SumsUp (m : TriplesMap) (parts : List TriplesMap) : Prop :=
  ∀ resolver map, CompiledMap.compile m resolver = .ok map →
    ∃ each, parts.mapM (fun part => CompiledMap.compile part resolver) = .ok each ∧
      ∀ tables joins position, (generateMap map tables resolver joins).rowQuads position =
        each.flatMap fun part => (generateMap part tables resolver joins).rowQuads position

def onlySubject (m : TriplesMap) (part : Template × List Template) : TriplesMap :=
  { m with subject := ⟨[part.1], none, part.2, []⟩ }

theorem compiledOnly {m : TriplesMap} {resolver : Resolver} {map : CompiledMap}
    (whole : CompiledMap.compile m resolver = .ok map) (plain : m.subject.functions = [])
    {template : Template} {graphs : List Template} {term : CompiledTerm} {compiled : List CompiledTerm}
    (alone : CompiledTerm.iri template resolver = .ok term) (level : compileIris graphs resolver = .ok compiled) :
    CompiledMap.compile (onlySubject m (template, graphs)) resolver = .ok (map.only term compiled) := by
  simp only [CompiledMap.compile, boundOk, pureOk] at whole
  obtain ⟨_, _, entries, first, _, _, mapGraphs, last, rfl⟩ := whole
  have subjects : CompiledSubjects.compile (onlySubject m (template, graphs)).subject resolver =
      .ok (.templates [term]) :=
    boundOk.mpr ⟨[term], mappedOk.mpr (.cons alone .nil), rfl⟩
  simp only [CompiledMap.compile, boundOk, pureOk]
  refine ⟨_, subjects, entries, first, compiled, level, mapGraphs, last, ?_⟩
  simp only [CompiledMap.only, onlySubject, CompiledMap.expressionKinds, plain]

theorem entriesGraphed {m : TriplesMap} {resolver : Resolver} {map : CompiledMap}
    (whole : CompiledMap.compile m resolver = .ok map) (own : ∀ po ∈ m.predicateObjects, po.graphs ≠ []) :
    ∀ entry ∈ map.entries, entry.graphs ≠ [] := by
  simp only [CompiledMap.compile, boundOk, pureOk] at whole
  obtain ⟨_, _, entries, compiled, _, _, _, _, rfl⟩ := whole
  intro entry mem
  obtain ⟨po, listed, made⟩ := mappedOrigin compiled mem
  simp only [CompiledEntry.compile, boundOk, pureOk] at made
  obtain ⟨_, _, _, _, _, _, graphs, level, rfl⟩ := made
  have lengths := (mappedOk.mp level).length_eq
  exact List.ne_nil_of_length_pos (lengths ▸ List.length_pos_iff.mpr (own po listed))

section

variable {m : TriplesMap} {parts : List (Template × List Template)}

theorem partsCompiled {resolver : Resolver} {terms level : List CompiledTerm} {graphs : List Template}
    (subjects : compileIris (parts.map Prod.fst) resolver = .ok terms)
    (compiled : compileIris graphs resolver = .ok level) (within : ∀ part ∈ parts, part.2 ⊆ graphs) :
    ∃ alone : List (CompiledTerm × List CompiledTerm), terms = alone.map Prod.fst ∧
      List.Forall₂ (fun part one => CompiledTerm.iri part.1 resolver = .ok one.1 ∧
        compileIris part.2 resolver = .ok one.2) parts alone := by
  have each : ∀ part ∈ parts, ∃ one : CompiledTerm × List CompiledTerm,
      CompiledTerm.iri part.1 resolver = .ok one.1 ∧ compileIris part.2 resolver = .ok one.2 := by
    intro part mem
    obtain ⟨term, _, one⟩ := mappedImage subjects (List.mem_map_of_mem mem)
    obtain ⟨chosen, pairs⟩ := pairedChosen fun g listed =>
      (mappedImage compiled (within part mem listed)).imp fun _ found => found.2
    exact ⟨(term, chosen), one, mappedOk.mpr pairs⟩
  obtain ⟨alone, pairs⟩ := pairedChosen each
  refine ⟨alone, ?_, pairs⟩
  have again : compileIris (parts.map Prod.fst) resolver = .ok (alone.map Prod.fst) := by
    refine mappedOk.mpr (List.forall₂_map_left_iff.mpr (List.forall₂_map_right_iff.mpr ?_))
    exact pairs.imp fun _ _ both => both.1
  exact Except.ok.inj (subjects.symm.trans again)

theorem sumsUp (templates : m.subject.templates = parts.map Prod.fst) (unquoted : m.subject.quoted = none)
    (plain : m.subject.functions = []) (within : ∀ part ∈ parts, part.2 ⊆ m.subject.graphs)
    (same : ∀ part ∈ parts, part.2 = m.subject.graphs ∨ ∀ po ∈ m.predicateObjects, po.graphs ≠ []) :
    SumsUp m (parts.map (onlySubject m)) := by
  intro resolver map whole
  have compiled := whole
  simp only [CompiledMap.compile, CompiledSubjects.compile, unquoted, templates, boundOk, pureOk] at compiled
  obtain ⟨_, ⟨_, subjects, rfl⟩, _, _, _, graphs, _, _, made⟩ := compiled
  obtain ⟨alone, rfl, pairs⟩ := partsCompiled subjects graphs within
  refine ⟨alone.map fun part => map.only part.1 part.2, ?_, fun tables joins position => ?_⟩
  · refine mappedOk.mpr (List.forall₂_map_left_iff.mpr (List.forall₂_map_right_iff.mpr ?_))
    exact pairs.imp fun _ _ ⟨one, level⟩ => compiledOnly whole plain one level
  · have terms : map.subjects = .templates (alone.map Prod.fst) := made ▸ rfl
    rw [List.flatMap_map]
    refine rowsSummed terms (fun part mem => ?_) tables resolver joins position
    obtain ⟨written, listed, _, chosen⟩ := pairedOrigin pairs mem
    rcases same written listed with all | own
    · cases Except.ok.inj ((all ▸ chosen).symm.trans graphs)
      exact .inl (made ▸ rfl)
    -- an entry with graphs of its own never looks at those of the subjects
    · exact .inr (entriesGraphed whole own)

theorem pooledSum (templates : m.subject.templates = parts.map Prod.fst) (unquoted : m.subject.quoted = none)
    (plain : m.subject.functions = []) : SumsUp m (parts.map fun part => onlySubject m (part.1, m.subject.graphs)) := by
  have same : ∀ part ∈ parts.map fun part => (part.1, m.subject.graphs), part.2 = m.subject.graphs := by
    intro part mem
    obtain ⟨_, _, rfl⟩ := List.mem_map.mp mem
    rfl
  have sum : SumsUp m ((parts.map fun part => (part.1, m.subject.graphs)).map (onlySubject m)) := by
    refine sumsUp ?_ unquoted plain (fun part mem => same part mem ▸ List.Subset.refl _) fun part mem => ?_
    · rw [templates, List.map_map]
      rfl
    · exact .inl (same part mem)
  rwa [List.map_map] at sum

end

end TabularRdf.Generation

namespace TabularRdf.Document
open Mapping Loading Generation

def entryText (owner : String) : Json → Option String
  | .obj fields => (Section.text? ⟨owner, fields⟩ .value).toOption.join
  | value => scalarText? value

def entryGraphs (owner : String) : Json → List Json
  | .obj fields => ((Section.get? ⟨owner, fields⟩ .graphs).toOption.join.map itemsOf).getD []
  | _ => []

def pooledEntry (owner : String) (items : List Json) (item : Json) : Json :=
  .obj [(Keyword.value.canonical, .str ((entryText owner item).getD "")),
    (Keyword.graphs.canonical, .arr (items.flatMap (entryGraphs owner)))]

section

variable {context : Context} {owner : String} {item : Json} {template : Template} {graphs : List Template}

structure Adds (context : Context) (owner : String) (item : Json) (template : Template) (beside : List Template) :
    Prop where
  text : ∃ text, entryText owner item = some text ∧ context.template text = .ok template
  graphs : context.templates owner (.arr (entryGraphs owner item)) = .ok beside
  step : ∀ before, addSubject context owner before item =
    .ok { before with templates := before.templates ++ [template], graphs := before.graphs ++ beside }

theorem graphsBeside {fields : Json.Fields} (read : context.templatesUnder ⟨owner, fields⟩ .graphs = .ok graphs) :
    context.templates owner (.arr (entryGraphs owner (.obj fields))) = .ok graphs := by
  obtain ⟨found, got, read⟩ := boundOk.mp read
  simp only [entryGraphs, got]
  cases found with
  | none => exact read
  | some value => exact read

theorem exclusiveKept {s : Section} {first : Keyword} {rest : List Keyword} {found : Option Keyword}
    (only : s.exclusiveAfter (some first) rest = .ok found) : found = some first := by
  induction rest with
  | nil => exact (Except.ok.inj only).symm
  | cons keyword rest ih =>
    obtain ⟨value, _, only⟩ := boundOk.mp only
    cases value with
    | none => exact ih only
    | some value => cases only

theorem valueAlone {s : Section} {text : String} {found : Option Keyword} {rest : List Keyword}
    (written : s.text? .value = .ok (some text)) (only : s.exclusive (.value :: rest) = .ok found) :
    found = some .value := by
  obtain ⟨value, got, written⟩ := boundOk.mp written
  cases value with
  | none => cases written
  | some value =>
    obtain ⟨again, same, only⟩ := boundOk.mp only
    cases Except.ok.inj (got.symm.trans same)
    exact exclusiveKept only

theorem entryOfTemplate {s : Section} {text : String} (written : s.text? .value = .ok (some text))
    (read : context.template text = .ok template) (level : context.templatesUnder s .graphs = .ok graphs)
    (only : s.exclusive [.value, .quoted, .quotedNonAsserted, .function] = .ok (some .value)) (before : SubjectSpec) :
    subjectEntry context s before =
      .ok { before with templates := before.templates ++ [template], graphs := before.graphs ++ graphs } := by
  refine boundOk.mpr ⟨_, boundOk.mpr ⟨graphs, level, rfl⟩, boundOk.mpr ⟨some .value, only, ?_⟩⟩
  dsimp only
  rw [if_pos rfl]
  exact boundOk.mpr ⟨some text, written, boundOk.mpr ⟨template, read, rfl⟩⟩

theorem templateAdds {text : String} (given : entryText owner item = some text) {before after : SubjectSpec}
    (added : addSubject context owner before item = .ok after) :
    ∃ template graphs, Adds context owner item template graphs := by
  cases item with
  | obj fields =>
    have written : Section.text? ⟨owner, fields⟩ .value = .ok (some text) :=
      optionOk.mp (Option.join_eq_some_iff.mp given)
    simp only [addSubject, subjectEntry, addGraphs, boundOk, pureOk] at added
    obtain ⟨_, ⟨graphs, level, rfl⟩, found, only, added⟩ := added
    cases valueAlone written only
    simp only [if_true, boundOk, written] at added
    obtain ⟨_, same, added⟩ := added
    cases Except.ok.inj same
    obtain ⟨template, read, _⟩ := boundOk.mp added
    exact ⟨template, graphs, ⟨text, given, read⟩, graphsBeside level, entryOfTemplate written read level only⟩
  | _ =>
    simp only [addSubject, boundOk, pureOk] at added
    obtain ⟨found, scalar, template, read, rfl⟩ := added
    have same : found = text := by
      simp_all [scalarOr, entryText]
    refine ⟨template, [], ⟨text, given, same ▸ read⟩, rfl, fun before => ?_⟩
    simp only [addSubject, boundOk, pureOk]
    exact ⟨found, scalar, template, read, by simp⟩

theorem entriesFolded {items : List Json} (templates : ∀ item ∈ items, (entryText owner item).isSome)
    {before after : SubjectSpec} (folded : items.foldlM (addSubject context owner) before = .ok after) :
    ∃ parts : List (Template × List Template),
      List.Forall₂ (fun item part => Adds context owner item part.1 part.2) items parts ∧
      after = { before with
        templates := before.templates ++ parts.map Prod.fst
        graphs := before.graphs ++ parts.flatMap Prod.snd } := by
  induction items generalizing before with
  | nil =>
    cases Except.ok.inj folded
    exact ⟨[], .nil, by simp⟩
  | cons item rest ih =>
    obtain ⟨head, tail⟩ := List.forall_mem_cons.mp templates
    obtain ⟨text, given⟩ := Option.isSome_iff_exists.mp head
    rw [List.foldlM_cons] at folded
    obtain ⟨next, added, folded⟩ := boundOk.mp folded
    obtain ⟨template, graphs, adds⟩ := templateAdds given added
    cases Except.ok.inj ((adds.step before).symm.trans added)
    obtain ⟨parts, pairs, rfl⟩ := ih tail folded
    exact ⟨(template, graphs) :: parts, .cons adds pairs, by simp⟩

theorem pooledAdds {items : List Json} {parts : List (Template × List Template)}
    (pairs : List.Forall₂ (fun item part => Adds context owner item part.1 part.2) items parts)
    (adds : Adds context owner item template graphs) :
    Adds context owner (pooledEntry owner items item) template (parts.flatMap Prod.snd) := by
  obtain ⟨text, given, read⟩ := adds.text
  have level : context.templates owner (.arr (items.flatMap (entryGraphs owner))) = .ok (parts.flatMap Prod.snd) :=
    mappedOk.mpr (List.rel_flatMap pairs fun _ _ adds => mappedOk.mp adds.graphs)
  have same : pooledEntry owner items item = .obj [(Keyword.value.canonical, .str text),
      (Keyword.graphs.canonical, .arr (items.flatMap (entryGraphs owner)))] := by
    rw [pooledEntry, given, Option.getD_some]
  rw [same]
  exact ⟨⟨text, rfl, read⟩, level, entryOfTemplate rfl read level rfl⟩

theorem subjectAlone {s : Section} (got : s.get? .subjects = .ok (some (.arr [item])))
    (adds : Adds context s.owner item template graphs) :
    parseSubjects context s = .ok ⟨[template], none, graphs, []⟩ := by
  refine boundOk.mpr ⟨_, got, boundOk.mpr ⟨_, boundOk.mpr ⟨_, adds.step SubjectSpec.empty, rfl⟩, rfl⟩⟩

end

section

variable {owner key : String} {fields : Json.Fields} {k : Keyword}

theorem writtenOnce {value : Json} (got : Section.get? ⟨owner, fields⟩ k = .ok (some value))
    (spelled : key ∈ k.spellings) {here : Json} (there : fields.lookup key = some here) :
    Layout.Holds fields k key value := by
  unfold Section.get? at got
  split at got <;> cases got
  rename_i first alone
  have only {x : String} {v : Json} (mem : x ∈ k.spellings) (found : fields.lookup x = some v) :
      x = first ∧ v = value := by
    have listed : (x, v) ∈ Section.written ⟨owner, fields⟩ k :=
      List.mem_filterMap.mpr ⟨x, mem, Option.map_eq_some_iff.mpr ⟨v, found, rfl⟩⟩
    simpa [alone] using listed
  refine ⟨spelled, fun x mem => ?_⟩
  obtain ⟨rfl, rfl⟩ := only spelled there
  split
  · rename_i same
    rw [same, there]
  · rename_i other
    exact Option.eq_none_iff_forall_not_mem.mpr fun v found => other (only mem found).1

theorem getReplaced (distinct : k.spellings.Nodup) {value : Json} (held : Layout.Holds fields k key value)
    (other : Json) : Section.get? ⟨owner, fields.set key other⟩ k = .ok (some other) := by
  have replaced : Layout.Holds (fields.set key other) k key other := by
    refine ⟨held.listed, fun x mem => ?_⟩
    split
    · rename_i same
      rw [same, Named.lookupSelf]
    · rename_i different
      rw [Named.lookupOther different, held.only x mem, if_neg different]
  rw [Section.get?, Layout.writtenHeld distinct replaced]

theorem getUntouched (missed : key ∉ k.spellings) (other : Json) :
    Section.get? ⟨owner, fields.set key other⟩ k = Section.get? ⟨owner, fields⟩ k := by
  have written : Section.written ⟨owner, fields.set key other⟩ k = Section.written ⟨owner, fields⟩ k :=
    List.filterMap_congr fun x mem => by
      have different : x ≠ key := fun same => missed (same ▸ mem)
      rw [Named.lookupOther different]
  rw [Section.get?, Section.get?, written]

end

section

variable {context : Context} {name key : String} {fields : Json.Fields} {m : TriplesMap}

theorem mappingReplaced (built : parseMapping context name (.obj fields) = .ok m)
    (spelled : key ∈ Keyword.subjects.spellings) {other : Json} {spec : SubjectSpec}
    (subjects : parseSubjects context ⟨name, fields.set key other⟩ = .ok spec) :
    parseMapping context name (.obj (fields.set key other)) = .ok { m with subject := spec } := by
  have apart : ∀ k ∈ [Keyword.sources, .targets, .graphs, .condition, .predicateObjects],
      ∀ key ∈ Keyword.subjects.spellings, key ∉ k.spellings := by decide
  have kept (k : Keyword) (listed : k ∈ [Keyword.sources, .targets, .graphs, .condition, .predicateObjects]) :
      Section.get? ⟨name, fields.set key other⟩ k = Section.get? ⟨name, fields⟩ k :=
    getUntouched (apart k listed key spelled) other
  have sources := kept .sources (by decide)
  have targets : targetsUnder context ⟨name, fields.set key other⟩ = targetsUnder context ⟨name, fields⟩ := by
    rw [targetsUnder, targetsUnder, kept .targets (by decide)]
  have graphs := templatesSame context (kept .graphs (by decide))
  have condition := kept .condition (by decide)
  have entries : parsePredicateObjects context ⟨name, fields.set key other⟩ =
      parsePredicateObjects context ⟨name, fields⟩ := by
    rw [parsePredicateObjects, parsePredicateObjects, kept .predicateObjects (by decide)]
  simp only [parseMapping, Section.ofValue, boundOk] at built
  obtain ⟨_, whole, written, got, rest⟩ := built
  cases Except.ok.inj whole
  cases written with
  | none => cases rest
  | some written =>
    simp only [boundOk, pureOk] at rest
    obtain ⟨_, ofSources, _, _, _, ofTargets, _, ofGraphs, _, ofCondition, _, carried, _, ofEntries, rfl⟩ := rest
    refine boundOk.mpr ⟨⟨name, fields.set key other⟩, rfl, boundOk.mpr ⟨some written, sources.trans got, ?_⟩⟩
    simp only [targets, graphs, condition, entries, boundOk, pureOk]
    exact ⟨_, ofSources, spec, subjects, _, ofTargets, _, ofGraphs, _, ofCondition, _, carried, _, ofEntries, rfl⟩

theorem subjectsListed (built : parseMapping context name (.obj fields) = .ok m)
    (spelled : key ∈ Keyword.subjects.spellings) {items : List Json} (there : fields.lookup key = some (.arr items)) :
    Layout.Holds fields .subjects key (.arr items) ∧
      items.foldlM (addSubject context name) SubjectSpec.empty = .ok m.subject := by
  simp only [parseMapping, Section.ofValue, boundOk] at built
  obtain ⟨_, whole, written, _, rest⟩ := built
  cases Except.ok.inj whole
  cases written with
  | none => cases rest
  | some written =>
    simp only [boundOk, pureOk] at rest
    obtain ⟨_, _, spec, subjects, _, _, _, _, _, _, _, _, _, _, rfl⟩ := rest
    obtain ⟨value, got, folded, _⟩ := subjectsOk.mp subjects
    have held := writtenOnce got spelled there
    have same := (held.only key spelled).symm.trans there
    rw [if_pos rfl] at same
    cases Option.some.inj same
    exact ⟨held, folded⟩

theorem entryAlone (built : parseMapping context name (.obj fields) = .ok m)
    (spelled : key ∈ Keyword.subjects.spellings) {value item : Json}
    (held : Layout.Holds fields .subjects key value) {template : Template} {graphs : List Template}
    (adds : Adds context name item template graphs) :
    parseMapping context name (.obj (fields.set key (.arr [item]))) = .ok (onlySubject m (template, graphs)) :=
  mappingReplaced built spelled (subjectAlone (getReplaced (by decide) held _) adds)

/-- A mapping with a list of templates for subjects gives in each row what it gives with each of them as its only
subject, one after the other, when each stands there with the graphs of them all. With its own graphs alone this is
so when none has any, or when every entry of predicates and objects has graphs of its own. -/
theorem subjectsSumUp (spelled : key ∈ Keyword.subjects.spellings) {items : List Json}
    (there : fields.lookup key = some (.arr items)) (templates : ∀ item ∈ items, (entryText name item).isSome)
    (built : parseMapping context name (.obj fields) = .ok m) : ∃ pooled own,
      (items.mapM fun item => parseMapping context name
        (.obj (fields.set key (.arr [pooledEntry name items item])))) = .ok pooled ∧
      (items.mapM fun item => parseMapping context name (.obj (fields.set key (.arr [item])))) = .ok own ∧
      SumsUp m pooled ∧
      ((∀ item ∈ items, entryGraphs name item = []) ∨ (∀ po ∈ m.predicateObjects, po.graphs ≠ []) →
        SumsUp m own) := by
  obtain ⟨held, folded⟩ := subjectsListed built spelled there
  obtain ⟨parts, pairs, whole⟩ := entriesFolded templates folded
  simp only [SubjectSpec.empty, List.nil_append] at whole
  have heads : m.subject.templates = parts.map Prod.fst := by rw [whole]
  have level : m.subject.graphs = parts.flatMap Prod.snd := by rw [whole]
  have unquoted : m.subject.quoted = none := by rw [whole]
  have plain : m.subject.functions = [] := by rw [whole]
  refine ⟨parts.map fun part => onlySubject m (part.1, m.subject.graphs), parts.map (onlySubject m), ?_, ?_,
    pooledSum heads unquoted plain, fun either => ?_⟩
  · rw [mappedOk, List.forall₂_map_right_iff]
    exact pairs.imp fun item part adds => entryAlone built spelled held (level ▸ pooledAdds pairs adds)
  · rw [mappedOk, List.forall₂_map_right_iff]
    exact pairs.imp fun item part adds => entryAlone built spelled held adds
  · refine sumsUp heads unquoted plain (fun part mem g listed => ?_) fun part mem => ?_
    · exact level ▸ List.mem_flatMap.mpr ⟨part, mem, listed⟩
    · refine either.imp (fun bare => ?_) id
      have none : ∀ part ∈ parts, part.2 = [] := by
        intro part mem
        obtain ⟨item, listed, adds⟩ := pairedOrigin pairs mem
        have read := adds.graphs
        rw [bare item listed] at read
        exact (Except.ok.inj read).symm
      rw [level, none part mem]
      exact (List.flatMap_eq_nil_iff.mpr none).symm

end

def bareContext : Context := ⟨[], [], [], ⟨[], none, .percent⟩⟩

def personSubjects : List Json :=
  [.str "http://example.org/person/$(id)",
    .obj [("value", .str "http://example.org/staff/$(id)"), ("graphs", .str "http://example.org/staff")]]

def twiceNamed (more : Json.Fields) : Json.Fields :=
  [("sources", .arr [.str "people.csv~csv"]),
    ("subjects", .arr personSubjects),
    ("po", .arr [.obj ([("p", .str "http://example.org/friend"), ("o", .str "$(friend)")] ++ more)])]

theorem namesSummed : ∃ m pooled own,
    parseMapping bareContext "person" (.obj (twiceNamed [("graphs", .str "http://example.org/friends")])) = .ok m ∧
    m.subject.graphs.length = 1 ∧ pooled.length = 2 ∧ SumsUp m pooled ∧ own.length = 2 ∧ SumsUp m own := by
  have given : (parseMapping bareContext "person"
      (.obj (twiceNamed [("graphs", .str "http://example.org/friends")]))).toOption.map
      (fun m => (m.subject.graphs.length, m.predicateObjects.all fun po => po.graphs ≠ [])) = some (1, true) := by
    decide +kernel
  obtain ⟨m, read, checks⟩ := Option.map_eq_some_iff.mp given
  obtain ⟨one, graphs⟩ := Prod.mk.inj checks
  have built := optionOk.mp read
  have apart : ∀ po ∈ m.predicateObjects, po.graphs ≠ [] := by
    simpa only [List.all_eq_true, decide_eq_true_eq] using graphs
  obtain ⟨pooled, own, first, second, whole, parts⟩ :=
    subjectsSumUp (by decide : "subjects" ∈ Keyword.subjects.spellings) rfl (by decide +kernel) built
  exact ⟨m, pooled, own, built, one, (mappedOk.mp first).length_eq.symm, whole,
    (mappedOk.mp second).length_eq.symm, parts (.inr apart)⟩

theorem graphsOfOthers : ∃ m own map each,
    parseMapping bareContext "person" (.obj (twiceNamed [])) = .ok m ∧
    (personSubjects.mapM fun item => parseMapping bareContext "person"
      (.obj ((twiceNamed []).set "subjects" (.arr [item])))) = .ok own ∧
    CompiledMap.compile m bareContext.resolver = .ok map ∧
    own.mapM (fun part => CompiledMap.compile part bareContext.resolver) = .ok each ∧
    ¬ ((generateMap map [agesTable] bareContext.resolver ⟨[], [], []⟩).rowQuads (0, 0)).Perm
      (each.flatMap fun part =>
        (generateMap part [agesTable] bareContext.resolver ⟨[], [], []⟩).rowQuads (0, 0)) := by
  have given : ((parseMapping bareContext "person" (.obj (twiceNamed []))).toOption.bind fun m =>
      (personSubjects.mapM fun item => parseMapping bareContext "person"
        (.obj ((twiceNamed []).set "subjects" (.arr [item])))).toOption.bind fun own =>
      (CompiledMap.compile m bareContext.resolver).toOption.bind fun map =>
      (own.mapM fun part => CompiledMap.compile part bareContext.resolver).toOption.map fun each =>
        decide (((generateMap map [agesTable] bareContext.resolver ⟨[], [], []⟩).rowQuads (0, 0)).Perm
          (each.flatMap fun part =>
            (generateMap part [agesTable] bareContext.resolver ⟨[], [], []⟩).rowQuads (0, 0)))) = some false := by
    decide +kernel
  obtain ⟨m, read, rest⟩ := Option.bind_eq_some_iff.mp given
  obtain ⟨own, parts, rest⟩ := Option.bind_eq_some_iff.mp rest
  obtain ⟨map, compiled, rest⟩ := Option.bind_eq_some_iff.mp rest
  obtain ⟨each, alone, apart⟩ := Option.map_eq_some_iff.mp rest
  exact ⟨m, own, map, each, optionOk.mp read, optionOk.mp parts, optionOk.mp compiled, optionOk.mp alone,
    of_decide_eq_false apart⟩

end TabularRdf.Document
