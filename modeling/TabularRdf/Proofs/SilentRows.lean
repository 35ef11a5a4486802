import TabularRdf.Proofs.CompiledForms
import TabularRdf.Proofs.Preparation
import TabularRdf.Proofs.RowProduct

/-! Rows without a report. Everything that a row does not give is reported for it, so a row of which nothing is
reported puts out all that its map declares: every subject with every entry, in every graph, and with every
inverse. -/
namespace TabularRdf.Mapping

def ObjectSpec.isFunction : ObjectSpec → Bool
  | .function _ => true
  | _ => false

def TriplesMap.graphLevel (m : TriplesMap) (po : PredicateObject) : List Template :=
  if po.graphs.isEmpty then (if m.subject.graphs.isEmpty then m.graphs else m.subject.graphs) else po.graphs

end TabularRdf.Mapping

namespace TabularRdf.Generation
open Iri Mapping Rdf Loading

namespace RowSite

def Gives (s : RowSite) (template : Template) (term : Term) : Prop :=
  ∃ t, CompiledTerm.iri template s.resolver = .ok t ∧ s.term? t = some term

def WholeSubjects (s : RowSite) (subject : SubjectSpec) (terms : List Term) : Prop :=
  terms ≠ [] ∧ match subject.quoted with
    | some q => terms = s.quoted q
    | none => List.Forall₂ s.Gives subject.templates terms

def WholeObjects (s : RowSite) (object : ObjectSpec) (terms : List Term) : Prop :=
  terms ≠ [] ∧ match object with
    | .term term => ∃ t value, CompiledTerm.object term s.resolver = .ok t ∧ s.term? t = some value ∧
        terms = [value]
    | .reference r => terms = s.referenced r
    | .quoted q => terms = s.quoted q
    | .function _ => False

def WholeGraphs (s : RowSite) (level : List Template) (graphs : List (Option String)) : Prop :=
  if level.isEmpty then graphs = [none]
  else List.Forall₂ (fun template graph => ∃ name, s.Gives template (.iri name) ∧ graph = some name) level graphs

structure WholeEntry (s : RowSite) (m : TriplesMap) (po : PredicateObject) (entry : RowEntry) : Prop where
  predicate : s.Gives po.predicate entry.predicate
  objects : s.WholeObjects po.object entry.objects
  inverse : Option.Rel s.Gives po.inverse entry.inverse
  graphs : s.WholeGraphs (m.graphLevel po) entry.graphs

def Complete (s : RowSite) (terms : List CompiledTerm) : Prop := ∀ t ∈ terms, ∃ term, s.term? t = some term

variable {s : RowSite}

theorem termsSilent {terms : List CompiledTerm}
    (silent : (termsAt s.resolver s.position.2 (terms.map (BoundTerm.ofTable s.table))).2 = []) :
    s.Complete terms := by
  intro t mem
  simp only [termsAt, List.map_map, List.filterMap_map, List.filterMap_eq_nil_iff] at silent
  have passed := silent t mem
  rw [← s.boundTerm t]
  simp only [Function.comp_apply] at passed
  cases result : (BoundTerm.ofTable s.table t).atRow s.resolver s.position.2 with
  | ok term => exact ⟨term, rfl⟩
  | error failure => simp [result, failureOf] at passed

theorem graphsSilent {level : List CompiledTerm}
    (silent : (graphsAt s.resolver s.position.2 (level.map (BoundTerm.ofTable s.table))).2 = []) :
    s.Complete level := by
  unfold graphsAt at silent
  rw [List.isEmpty_map] at silent
  split at silent
  · rename_i none
    simp [List.isEmpty_iff.mp none, Complete]
  · exact termsSilent silent

theorem joinSilent {reference : String} {terms : List Term} (silent : (joined reference terms).2 = []) :
    terms ≠ [] := by
  rintro rfl
  simp [joined] at silent

theorem objectsSilent {entry : CompiledEntry} (valued : entry.object ≠ .function)
    (silent : (objectsAt s.resolver s.context s.position (entry.object.bind s.table).1).2 = []) :
    s.objects entry ≠ [] := by
  unfold objects
  cases kind : entry.object with
  | term t =>
    rw [kind] at silent
    have complete : s.Complete [t] := termsSilent silent
    obtain ⟨term, given⟩ := complete t List.mem_cons_self
    simp [given]
  | reference r =>
    rw [kind] at silent
    exact joinSilent silent
  | quoted q =>
    rw [kind] at silent
    exact joinSilent silent
  | function => exact absurd kind valued

structure CompleteEntry (s : RowSite) (entry : CompiledEntry) : Prop where
  predicate : ∃ term, s.term? entry.predicate = some term
  objects : s.objects entry ≠ []
  inverse : s.Complete entry.inverse.toList
  graphs : s.Complete entry.graphs

theorem entrySilent {entry : CompiledEntry} (valued : entry.object ≠ .function)
    {inherited : List (Option String)}
    (silent : (entryAt s.resolver s.context s.position inherited (entry.bind s.table).1).2 = []) :
    s.CompleteEntry entry := by
  unfold entryAt at silent
  split at silent
  · simp at silent
  · rename_i predicate given
    have predicates : s.term? entry.predicate = some predicate :=
      (s.boundTerm entry.predicate).symm.trans (congrArg Except.toOption given)
    dsimp only at silent
    split at silent
    · rename_i empty
      exact absurd ((s.objectsJoined entry).symm.trans (List.isEmpty_iff.mp empty))
        (objectsSilent valued silent)
    · rename_i found
      obtain ⟨inverses, graphs⟩ := List.append_eq_nil_iff.mp silent
      refine ⟨⟨predicate, predicates⟩, ?_, ?_, ?_⟩
      · rw [← s.objectsJoined entry]
        exact fun none => found (List.isEmpty_iff.mpr none)
      · refine termsSilent (Eq.trans ?_ inverses)
        simp only [CompiledEntry.bind]
        cases entry.inverse <;> rfl
      · simp only [CompiledEntry.bind, List.isEmpty_map] at graphs
        split at graphs
        · rename_i none
          simp [List.isEmpty_iff.mp none, Complete]
        · exact graphsSilent graphs

theorem subjectsSilent {map : CompiledMap} (declared : ∀ terms, map.subjects = .templates terms → terms ≠ [])
    (silent : (subjectsAt s.resolver s.context s.position (map.subjects.bind s.table).1).2 = []) :
    s.subjects map ≠ [] ∧ ∀ terms, map.subjects = .templates terms → s.Complete terms := by
  unfold subjects
  cases kind : map.subjects with
  | templates terms =>
    rw [kind] at silent
    have complete := termsSilent silent
    refine ⟨?_, fun _ same => CompiledSubjects.templates.inj same ▸ complete⟩
    obtain ⟨t, mem⟩ := List.exists_mem_of_ne_nil terms (declared terms kind)
    obtain ⟨term, given⟩ := complete t mem
    exact List.ne_nil_of_mem (List.mem_filterMap.mpr ⟨t, mem, given⟩)
  | quoted q =>
    rw [kind] at silent
    exact ⟨joinSilent silent, fun _ impossible => by cases impossible⟩

structure CompleteRow (s : RowSite) (map : CompiledMap) : Prop where
  subjects : s.subjects map ≠ []
  templates : ∀ terms, map.subjects = .templates terms → s.Complete terms
  shared : s.Complete map.sharedLevel
  entries : ∀ entry ∈ map.entries, entry.object ≠ .function → s.CompleteEntry entry

theorem rowSilent {map : CompiledMap} (declared : ∀ terms, map.subjects = .templates terms → terms ≠ [])
    (silent : (rowAt s.resolver s.context (map.bind s.table).1 s.position).2 = []) : s.CompleteRow map := by
  unfold rowAt at silent
  dsimp only at silent
  split at silent
  · rename_i empty
    exact absurd ((s.subjectsJoined map).symm.trans (List.isEmpty_iff.mp empty))
      (subjectsSilent declared silent).1
  · rw [List.append_eq_nil_iff, List.append_eq_nil_iff, List.flatMap_eq_nil_iff] at silent
    obtain ⟨⟨ofSubjects, ofGraphs⟩, ofEntries⟩ := silent
    obtain ⟨some, templates⟩ := subjectsSilent declared ofSubjects
    refine ⟨some, templates, ?_, fun entry mem valued => ?_⟩
    · simp only [CompiledMap.bind, List.isEmpty_map] at ofGraphs
      unfold CompiledMap.sharedLevel
      split at ofGraphs
      · rename_i none
        rw [if_pos none]
        exact graphsSilent ofGraphs
      · rename_i own
        rw [if_neg own]
        exact graphsSilent ofGraphs
    · refine entrySilent valued (ofEntries _ (List.mem_map_of_mem ?_))
      simp only [CompiledMap.bind, List.map_map]
      exact List.mem_map_of_mem mem

theorem givenIri {template : Template} {term : Term} (given : s.Gives template term) :
    ∃ name, term = .iri name := by
  obtain ⟨t, compiled, resolved⟩ := given
  have iri := CompiledTerm.builtIri (CompiledTerm.iriShape compiled) (optionOk.mp resolved)
  cases term with
  | iri name => exact ⟨name, rfl⟩
  | _ => contradiction

theorem allGiven {templates : List Template} {terms : List CompiledTerm}
    (compiled : compileIris templates s.resolver = .ok terms) (complete : s.Complete terms) :
    List.Forall₂ s.Gives templates (terms.filterMap s.term?) := by
  have pairs := mappedOk.mp compiled
  clear compiled
  induction pairs with
  | nil => exact .nil
  | cons head _ ih =>
    obtain ⟨term, given⟩ := complete _ List.mem_cons_self
    rw [List.filterMap_cons_some given]
    exact .cons ⟨_, head, given⟩ (ih fun t mem => complete t (List.mem_cons_of_mem _ mem))

theorem graphsNamed {templates : List Template} {terms : List Term}
    (given : List.Forall₂ s.Gives templates terms) :
    List.Forall₂ (fun template graph => ∃ name, s.Gives template (.iri name) ∧ graph = some name) templates
      (terms.filterMap fun t => t.iri?.map some) := by
  induction given with
  | nil => exact .nil
  | cons head _ ih =>
    obtain ⟨name, rfl⟩ := givenIri head
    exact .cons ⟨name, head, rfl⟩ ih

theorem irisEmpty {resolver : Resolver} {templates : List Template} {terms : List CompiledTerm}
    (compiled : compileIris templates resolver = .ok terms) : terms.isEmpty = templates.isEmpty := by
  cases mappedOk.mp compiled <;> rfl

theorem graphsWhole {templates : List Template} {level : List CompiledTerm}
    (compiled : compileIris templates s.resolver = .ok level) (complete : s.Complete level) :
    s.WholeGraphs templates (s.graphsOf level) := by
  unfold WholeGraphs graphsOf
  rw [irisEmpty compiled]
  split
  · rfl
  · exact graphsNamed (allGiven compiled complete)

end RowSite

theorem graphLevelCompiled {m : TriplesMap} {map : CompiledMap} {resolver : Resolver}
    (compiled : CompiledMap.compile m resolver = .ok map) {po : PredicateObject} {entry : CompiledEntry}
    (own : compileIris po.graphs resolver = .ok entry.graphs) :
    compileIris (m.graphLevel po) resolver = .ok (map.graphLevel entry) := by
  obtain ⟨ofSubject, ofMap⟩ := levelsCompiled compiled
  unfold TriplesMap.graphLevel CompiledMap.graphLevel CompiledMap.sharedLevel
  rw [RowSite.irisEmpty own, RowSite.irisEmpty ofSubject]
  split
  · split
    · exact ofMap
    · exact ofSubject
  · exact own

theorem functionCompiled {object : ObjectSpec} {compiled : CompiledObject} {resolver : Resolver}
    (done : CompiledObject.compile object resolver = .ok compiled) :
    object.isFunction ↔ compiled = .function := by
  cases object with
  | term t =>
    obtain ⟨_, _, same⟩ := boundOk.mp done
    cases pureOk.mp same
    simp [ObjectSpec.isFunction]
  | _ =>
    cases pureOk.mp done
    simp [ObjectSpec.isFunction]

namespace RowSite

variable {s : RowSite} {m : TriplesMap} {map : CompiledMap}

theorem subjectsWhole (compiled : CompiledSubjects.compile m.subject s.resolver = .ok map.subjects)
    (complete : s.CompleteRow map) : s.WholeSubjects m.subject (s.subjects map) := by
  refine ⟨complete.subjects, ?_⟩
  unfold subjects
  cases quoted : m.subject.quoted with
  | some q => rw [compiledQuoted compiled quoted]
  | none =>
    obtain ⟨terms, templates, made⟩ := compiledTemplates compiled quoted
    rw [made]
    exact allGiven templates (complete.templates terms made)

theorem objectsWhole {po : PredicateObject} {entry : CompiledEntry}
    (compiled : CompiledObject.compile po.object s.resolver = .ok entry.object)
    (found : s.objects entry ≠ []) : s.WholeObjects po.object (s.objects entry) := by
  refine ⟨found, ?_⟩
  unfold objects at found ⊢
  cases kind : po.object with
  | term term =>
    rw [kind] at compiled
    obtain ⟨t, whole, same⟩ := boundOk.mp compiled
    rw [← pureOk.mp same] at found ⊢
    cases given : s.term? t with
    | none => simp [given] at found
    | some value => exact ⟨t, value, whole, given, by simp [given]⟩
  | reference r =>
    rw [kind] at compiled
    rw [← pureOk.mp compiled]
  | quoted q =>
    rw [kind] at compiled
    rw [← pureOk.mp compiled]
  | function e =>
    rw [kind] at compiled
    rw [← pureOk.mp compiled] at found
    contradiction

theorem inverseWhole {template : Option Template} {t : Option CompiledTerm}
    (compiled : (template.mapM fun template => CompiledTerm.iri template s.resolver) = .ok t)
    (complete : s.Complete t.toList) : Option.Rel s.Gives template (t.bind s.term?) := by
  cases template with
  | none =>
    cases pureOk.mp compiled
    exact .none
  | some template =>
    obtain ⟨t, one, same⟩ := boundOk.mp compiled
    cases pureOk.mp same
    obtain ⟨term, given⟩ := complete t List.mem_cons_self
    rw [Option.bind_some, given]
    exact .some ⟨t, one, given⟩

variable (compiled : CompiledMap.compile m s.resolver = .ok map) (complete : s.CompleteRow map)
include compiled complete

theorem entryWhole {po : PredicateObject} {entry : CompiledEntry}
    (one : CompiledEntry.compile s.resolver po = .ok entry) (whole : s.CompleteEntry entry) :
    ∃ row, s.WholeEntry m po row ∧ ∀ subject, s.entryQuads map subject entry = row.quads subject := by
  obtain ⟨predicates, inverses, graphs⟩ := entryParts one
  obtain ⟨predicate, given⟩ := whole.predicate
  have resolved : s.Complete (map.graphLevel entry) := by
    unfold CompiledMap.graphLevel
    split
    · exact complete.shared
    · exact whole.graphs
  refine ⟨⟨predicate, s.objects entry, entry.inverse.bind s.term?, s.graphsOf (map.graphLevel entry)⟩,
    ⟨⟨_, predicates, given⟩, objectsWhole (compiledObject one) whole.objects,
      inverseWhole inverses whole.inverse, graphsWhole (graphLevelCompiled compiled graphs) resolved⟩,
    fun subject => ?_⟩
  simp only [entryQuads, given, Option.toList_some, List.flatMap_singleton, RowEntry.quads, pair]

theorem entriesWhole {pos : List PredicateObject} {entries : List CompiledEntry}
    (pairs : List.Forall₂ (fun po entry => CompiledEntry.compile s.resolver po = .ok entry) pos entries)
    (listed : ∀ entry ∈ entries, entry ∈ map.entries) :
    ∃ rows, List.Forall₂ (s.WholeEntry m) (pos.filter fun po => !po.object.isFunction) rows ∧
      ∀ subject, entries.flatMap (s.entryQuads map subject) = rows.flatMap fun row => row.quads subject := by
  induction pairs with
  | nil => exact ⟨[], .nil, fun _ => rfl⟩
  | @cons po entry pos entries head _ ih =>
    obtain ⟨mem, later⟩ := List.forall_mem_cons.mp listed
    obtain ⟨rows, each, quads⟩ := ih later
    have kind := functionCompiled (compiledObject head)
    by_cases function : po.object.isFunction
    · have lacks : s.Lacks entry := .inr (by rw [objects, kind.mp function])
      refine ⟨rows, by simpa [function] using each, fun subject => ?_⟩
      rw [List.flatMap_cons, lackingQuads lacks, List.nil_append, quads]
    · have valued : entry.object ≠ .function := fun none => function (kind.mpr none)
      obtain ⟨row, whole, ofRow⟩ := entryWhole compiled complete head (complete.entries entry mem valued)
      refine ⟨row :: rows, by simpa [function] using ⟨whole, each⟩, fun subject => ?_⟩
      rw [List.flatMap_cons, List.flatMap_cons, ofRow, quads]

theorem rowWhole : ∃ subjects entries, s.WholeSubjects m.subject subjects ∧
    List.Forall₂ (s.WholeEntry m) (m.predicateObjects.filter fun po => !po.object.isFunction) entries ∧
    s.quads map = subjects.flatMap fun subject => entries.flatMap fun entry => entry.quads subject := by
  obtain ⟨subject, mapped⟩ := compiledParts compiled
  obtain ⟨rows, each, quads⟩ := entriesWhole compiled complete (mappedOk.mp mapped) fun _ mem => mem
  refine ⟨s.subjects map, rows, subjectsWhole subject complete, each, ?_⟩
  simp only [RowSite.quads, quads]

end RowSite

section

variable {map : CompiledMap} {tables : List Table} {resolver : Resolver} {context : JoinContext}

theorem reportListed {t row : Nat} {table : Table} (there : tables[t]? = some table) (bound : row < table.rows)
    {kind : DiagnosticKind} (reported : kind ∈ (rowAt resolver context (map.bind table).1 (t, row)).2) :
    ⟨map.name, some row, kind⟩ ∈ (generateMap map tables resolver context).diagnostics := by
  have numbered : (table, t) ∈ tables.zipIdx := List.mem_zipIdx_iff_getElem?.mpr there
  refine List.mem_append_right _ (List.mem_flatMap.mpr ⟨_, List.mem_map_of_mem numbered, ?_⟩)
  refine List.mem_append_right _ (List.mem_flatMap.mpr ⟨_, List.mem_map_of_mem (List.mem_range.mpr bound), ?_⟩)
  exact List.mem_map_of_mem reported

theorem nothingReported {t row : Nat} {table : Table} (there : tables[t]? = some table)
    (bound : row < table.rows)
    (silent : ∀ d ∈ (generateMap map tables resolver context).diagnostics, d.row ≠ some row) :
    (rowAt resolver context (map.bind table).1 (t, row)).2 = [] :=
  List.eq_nil_iff_forall_not_mem.mpr fun _ reported => silent _ (reportListed there bound reported) rfl

end

end TabularRdf.Generation

namespace TabularRdf.Document
open Mapping Generation Loading

def friendsDocument : Json := .obj [("mappings", .obj [
  ("person", .obj [
    ("sources", .arr [.str "people.csv~csv"]),
    ("s", .str "http://example.org/$(id)"),
    ("po", .arr [
      .obj [
        ("p", .str "http://example.org/knows"),
        ("o", .str "http://example.org/$(friend)~iri"),
        ("i", .str "http://example.org/knownBy"),
        ("g", .arr [.str "http://example.org/g1", .str "http://example.org/g2"])],
      .arr [.str "http://example.org/mail", .str "$(mail)"]])])])]

def friendsTable : Table where
  schema := ⟨[⟨"id", .string, false⟩, ⟨"friend", .string, false⟩, ⟨"mail", .string, true⟩]⟩
  columns := [.string #[some "1", some "2"], .string #[some "2", some "1"], .string #[some "a@b", none]]
  rows := 2

end TabularRdf.Document
