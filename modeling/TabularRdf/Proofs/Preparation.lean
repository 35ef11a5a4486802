import TabularRdf.Generation.Run
import TabularRdf.Proofs.Loading
import TabularRdf.Proofs.NamedUpdates

/-! What is fetched, compiled and indexed before a run. Every map is prepared under its name, and every join
that a map takes part in has its index. -/
namespace TabularRdf.Generation
open Iri Mapping Loading

section

variable {provider : TableProvider} {resolver : Resolver} {maps : List TriplesMap} {all : Named Prepared}

theorem tablesPaired {m : TriplesMap} {tables : List Table} (fetched : tablesOf provider m = .ok tables) :
    List.Forall₂ (fun source table => provider source = some table) m.sources tables := by
  refine (mappedOk.mp fetched).imp fun source table head => ?_
  split at head
  · rename_i found
    rw [found, Except.ok.inj head]
  · contradiction

theorem tablesMeant {m : TriplesMap} {meant : Source → Table}
    (given : ∀ source ∈ m.sources, provider source = some (meant source)) :
    tablesOf provider m = .ok (m.sources.map meant) := by
  refine mappedOk.mpr (List.forall₂_map_right_iff.mpr (List.forall₂_same.mpr fun source mem => ?_))
  rw [given source mem]

theorem preparedEntries (loaded : prepareAll provider resolver maps = .ok all) :
    ∃ entries, all = Named.setAll [] entries ∧ List.Forall₂
      (fun m entry => entry.1 = m.name ∧ prepare provider resolver m = .ok entry.2) maps entries := by
  simp only [prepareAll, boundOk, pureOk] at loaded
  obtain ⟨entries, mapped, rfl⟩ := loaded
  refine ⟨entries, rfl, (mappedOk.mp mapped).imp ?_⟩
  intro m entry given
  simp only [boundOk, pureOk] at given
  obtain ⟨ready, done, rfl⟩ := given
  exact ⟨rfl, done⟩

theorem preparedOrigin (loaded : prepareAll provider resolver maps = .ok all) {name : String}
    {ready : Prepared} (found : all.lookup name = some ready) :
    ∃ m ∈ maps, m.name = name ∧ prepare provider resolver m = .ok ready := by
  obtain ⟨entries, rfl, pairs⟩ := preparedEntries loaded
  rcases Named.setAllOrigin found with listed | absent
  · obtain ⟨m, mem, named, done⟩ := pairedOrigin pairs listed
    exact ⟨m, mem, named.symm, done⟩
  · contradiction

theorem preparedNames {entries : Named Prepared} (pairs : List.Forall₂
    (fun m entry => entry.1 = m.name ∧ prepare provider resolver m = .ok entry.2) maps entries) :
    entries.map Prod.fst = maps.map TriplesMap.name := by
  induction pairs with
  | nil => rfl
  | cons head _ ih => rw [List.map_cons, List.map_cons, ih, head.1]

theorem preparedKnown (loaded : prepareAll provider resolver maps = .ok all) {name : String}
    (listed : name ∈ maps.map TriplesMap.name) : ∃ ready, all.lookup name = some ready := by
  obtain ⟨entries, rfl, pairs⟩ := preparedEntries loaded
  exact Named.setAllKnown (preparedNames pairs ▸ listed)

theorem preparedOf (loaded : prepareAll provider resolver maps = .ok all)
    (distinct : (maps.map TriplesMap.name).Nodup) {m : TriplesMap} (mem : m ∈ maps) :
    ∃ ready, all.lookup m.name = some ready ∧ prepare provider resolver m = .ok ready := by
  obtain ⟨entries, rfl, pairs⟩ := preparedEntries loaded
  have names := preparedNames pairs
  obtain ⟨⟨_, ready⟩, listed, rfl, done⟩ := pairedImage pairs mem
  exact ⟨ready, Named.setAllOf (names ▸ distinct) listed, done⟩

theorem prepareOk {m : TriplesMap} {ready : Prepared} (done : prepare provider resolver m = .ok ready) :
    tablesOf provider m = .ok ready.tables ∧ CompiledMap.compile m resolver = .ok ready.map := by
  simp only [prepare, boundOk, pureOk] at done
  obtain ⟨tables, fetched, compiled, whole, rfl⟩ := done
  exact ⟨fetched, whole⟩

end

theorem indexAdded {α : Type} {build : IndexKey → α} {keys : List IndexKey}
    {table : List (IndexKey × α)} {key : IndexKey} :
    (keys.foldl (addIndex build) table).lookup key =
      (table.lookup key).or (if key ∈ keys then some (build key) else none) := by
  induction keys generalizing table with
  | nil => simp
  | cons first rest ih =>
    rw [List.foldl_cons, ih]
    unfold addIndex
    by_cases known : (table.lookup first).isSome
    · rw [if_pos known]
      by_cases same : key = first
      · subst same
        obtain ⟨index, found⟩ := Option.isSome_iff_exists.mp known
        simp [found]
      · simp [same]
    · rw [if_neg known, List.lookup_append]
      have missing : table.lookup first = none := Option.not_isSome_iff_eq_none.mp known
      by_cases same : key = first
      · subst same
        simp [missing]
      · simp [same, List.lookup_cons, beq_eq_false_iff_ne.mpr same]

theorem quoteIndexBuilt {maps : List CompiledMap} {all : Named Prepared} {resolver : Resolver} {key : IndexKey} :
    (buildIndexes maps all resolver).1.lookup key =
      if (∃ map ∈ maps, key ∈ map.quoteKeys) ∧ key.2 ≠ [] then some (quoteIndexFor all key) else none := by
  rw [buildIndexes, indexAdded, List.lookup_nil, Option.none_or]
  refine if_congr ?_ rfl rfl
  rw [List.mem_filter, List.mem_flatMap]
  simp

theorem subjectIndexBuilt {maps : List CompiledMap} {all : Named Prepared} {resolver : Resolver} {key : IndexKey} :
    (buildIndexes maps all resolver).2.lookup key =
      if ∃ map ∈ maps, key ∈ map.subjectKeys then some (subjectIndexFor all resolver key) else none := by
  rw [buildIndexes, indexAdded, List.lookup_nil, Option.none_or]
  exact if_congr List.mem_flatMap rfl rfl

section

variable {resolver : Resolver}

theorem compiledObject {po : PredicateObject} {entry : CompiledEntry}
    (compiled : CompiledEntry.compile resolver po = .ok entry) :
    CompiledObject.compile po.object resolver = .ok entry.object := by
  simp only [CompiledEntry.compile, boundOk, pureOk] at compiled
  obtain ⟨object, whole, _, _, _, _, _, _, rfl⟩ := compiled
  exact whole

theorem entryParts {po : PredicateObject} {entry : CompiledEntry}
    (compiled : CompiledEntry.compile resolver po = .ok entry) :
    CompiledTerm.iri po.predicate resolver = .ok entry.predicate ∧
      (po.inverse.mapM fun template => CompiledTerm.iri template resolver) = .ok entry.inverse ∧
      compileIris po.graphs resolver = .ok entry.graphs := by
  simp only [CompiledEntry.compile, boundOk, pureOk] at compiled
  obtain ⟨_, _, _, predicate, _, inverse, _, graphs, rfl⟩ := compiled
  exact ⟨predicate, inverse, graphs⟩

theorem compiledQuoted {subject : SubjectSpec} {subjects : CompiledSubjects} {q : QuotedRef}
    (compiled : CompiledSubjects.compile subject resolver = .ok subjects) (quoted : subject.quoted = some q) :
    subjects = .quoted q := by
  rw [CompiledSubjects.compile, quoted] at compiled
  exact (pureOk.mp compiled).symm

theorem quotedOrigin {subject : SubjectSpec} {q : QuotedRef}
    (compiled : CompiledSubjects.compile subject resolver = .ok (.quoted q)) : subject.quoted = some q := by
  unfold CompiledSubjects.compile at compiled
  split at compiled
  · rename_i written
    cases pureOk.mp compiled
    exact written
  · obtain ⟨_, _, same⟩ := boundOk.mp compiled
    cases pureOk.mp same

theorem objectOrigin {object : ObjectSpec} {compiled : CompiledObject}
    (done : CompiledObject.compile object resolver = .ok compiled) :
    (∀ r, compiled = .reference r → object = .reference r) ∧
      ∀ q, compiled = .quoted q → object = .quoted q := by
  cases object with
  | term t =>
    obtain ⟨_, _, same⟩ := boundOk.mp done
    cases pureOk.mp same
    simp
  | reference r => cases pureOk.mp done; simp
  | quoted q => cases pureOk.mp done; simp
  | function e => cases pureOk.mp done; simp

theorem compiledTemplates {subject : SubjectSpec} {subjects : CompiledSubjects}
    (compiled : CompiledSubjects.compile subject resolver = .ok subjects) (plain : subject.quoted = none) :
    ∃ terms, compileIris subject.templates resolver = .ok terms ∧ subjects = .templates terms := by
  simp only [CompiledSubjects.compile, plain, boundOk, pureOk] at compiled
  obtain ⟨terms, whole, rfl⟩ := compiled
  exact ⟨terms, whole, rfl⟩

variable {m : TriplesMap} {map : CompiledMap} (compiled : CompiledMap.compile m resolver = .ok map)
include compiled

theorem compiledParts : CompiledSubjects.compile m.subject resolver = .ok map.subjects ∧
    m.predicateObjects.mapM (CompiledEntry.compile resolver) = .ok map.entries := by
  simp only [CompiledMap.compile, boundOk, pureOk] at compiled
  obtain ⟨subjects, subject, entries, mapped, _, _, _, _, rfl⟩ := compiled
  exact ⟨subject, mapped⟩

theorem levelsCompiled : compileIris m.subject.graphs resolver = .ok map.subjectGraphs ∧
    compileIris m.graphs resolver = .ok map.mapGraphs := by
  simp only [CompiledMap.compile, boundOk, pureOk] at compiled
  obtain ⟨_, _, _, _, _, ofSubject, _, ofMap, rfl⟩ := compiled
  exact ⟨ofSubject, ofMap⟩

theorem quoteKeyListed {q : QuotedRef} (reference : q ∈ m.quotedRefs) :
    indexKey q.mapping q.condition ∈ map.quoteKeys := by
  obtain ⟨subject, mapped⟩ := compiledParts compiled
  rcases List.mem_append.mp reference with ofSubject | ofObject
  · have quoted := compiledQuoted subject (Option.mem_toList.mp ofSubject)
    refine List.mem_append_left _ ?_
    rw [quoted]
    exact List.mem_singleton_self _
  · obtain ⟨po, listed, quoted⟩ := List.mem_filterMap.mp ofObject
    obtain ⟨entry, mem, one⟩ := mappedImage mapped listed
    refine List.mem_append_right _ (List.mem_filterMap.mpr ⟨entry, mem, ?_⟩)
    have object := compiledObject one
    cases kind : po.object <;> rw [kind] at quoted object <;> cases quoted
    rw [← pureOk.mp object]

theorem subjectKeyListed {po : PredicateObject} (listed : po ∈ m.predicateObjects) {r : MappingRef}
    (reference : po.object = .reference r) : indexKey r.mapping r.condition ∈ map.subjectKeys := by
  obtain ⟨entry, mem, one⟩ := mappedImage (compiledParts compiled).2 listed
  have object := compiledObject one
  rw [reference] at object
  exact List.mem_filterMap.mpr ⟨entry, mem, by rw [← pureOk.mp object]⟩

theorem quoteKeyOrigin {key : IndexKey} (listed : key ∈ map.quoteKeys) :
    ∃ q ∈ m.quotedRefs, key = indexKey q.mapping q.condition := by
  obtain ⟨subject, mapped⟩ := compiledParts compiled
  rcases List.mem_append.mp listed with ofSubject | ofObject
  · split at ofSubject
    · rename_i q quoted
      cases List.mem_singleton.mp ofSubject
      rw [quoted] at subject
      exact ⟨q, List.mem_append_left _ (Option.mem_toList.mpr (quotedOrigin subject)), rfl⟩
    · contradiction
  · obtain ⟨entry, mem, found⟩ := List.mem_filterMap.mp ofObject
    obtain ⟨po, written, one⟩ := mappedOrigin mapped mem
    split at found
    · rename_i q quoted
      cases Option.some.inj found
      have object := (objectOrigin (compiledObject one)).2 q quoted
      exact ⟨q, List.mem_append_right _ (List.mem_filterMap.mpr ⟨po, written, by rw [object]; rfl⟩), rfl⟩
    · contradiction

theorem subjectKeyOrigin {key : IndexKey} (listed : key ∈ map.subjectKeys) :
    ∃ po ∈ m.predicateObjects, ∃ r, po.object = .reference r ∧ key = indexKey r.mapping r.condition := by
  obtain ⟨entry, mem, found⟩ := List.mem_filterMap.mp listed
  obtain ⟨po, written, one⟩ := mappedOrigin (compiledParts compiled).2 mem
  split at found
  · rename_i r reference
    cases Option.some.inj found
    exact ⟨po, written, r, (objectOrigin (compiledObject one)).1 r reference, rfl⟩
  · contradiction

end

section

structure Setup.Made (setup : Setup) (spec : Specification) (options : GenerationOptions)
    (provider : TableProvider) : Prop where
  resolver : setup.resolver = resolverOf spec options
  prepared : prepareAll provider setup.resolver spec.maps = .ok setup.prepared
  quotes : setup.quoteIndexes =
    (buildIndexes (setup.prepared.map fun (_, ready) => ready.map) setup.prepared setup.resolver).1
  subjects : setup.subjectIndexes =
    (buildIndexes (setup.prepared.map fun (_, ready) => ready.map) setup.prepared setup.resolver).2

variable {spec : Specification} {options : GenerationOptions} {provider : TableProvider} {setup : Setup}

theorem setupMade {cancelled : Bool} (made : Setup.make spec options provider cancelled = .ok setup) :
    setup.Made spec options provider := by
  simp only [Setup.make, boundOk, pureOk] at made
  obtain ⟨prepared, loaded, rfl⟩ := made
  exact ⟨rfl, loaded, rfl, rfl⟩

theorem setupFlag {cancelled : Bool} (made : Setup.make spec options provider cancelled = .ok setup) :
    setup.cancelled = cancelled := by
  simp only [Setup.make, boundOk, pureOk] at made
  obtain ⟨_, _, rfl⟩ := made
  rfl

variable (made : setup.Made spec options provider)
include made

theorem setupOrigin {name : String} {ready : Prepared} (found : setup.prepared.lookup name = some ready) :
    ∃ m ∈ spec.maps, m.name = name ∧ prepare provider setup.resolver m = .ok ready :=
  preparedOrigin made.prepared found

theorem quoteIndexed {name : String} {ready : Prepared} (found : setup.prepared.lookup name = some ready)
    {key : IndexKey} (listed : key ∈ ready.map.quoteKeys) (keyed : key.2 ≠ []) :
    setup.quoteIndexes.lookup key = some (quoteIndexFor setup.prepared key) := by
  rw [made.quotes, quoteIndexBuilt, if_pos]
  exact ⟨⟨ready.map, List.mem_map.mpr ⟨_, Named.foundListed found, rfl⟩, listed⟩, keyed⟩

theorem subjectIndexed {name : String} {ready : Prepared} (found : setup.prepared.lookup name = some ready)
    {key : IndexKey} (listed : key ∈ ready.map.subjectKeys) :
    setup.subjectIndexes.lookup key = some (subjectIndexFor setup.prepared setup.resolver key) := by
  rw [made.subjects, subjectIndexBuilt, if_pos]
  exact ⟨ready.map, List.mem_map.mpr ⟨_, Named.foundListed found, rfl⟩, listed⟩

theorem subjectIndexOrigin {key : IndexKey} {index : SubjectIndex}
    (found : setup.subjectIndexes.lookup key = some index) :
    index = subjectIndexFor setup.prepared setup.resolver key := by
  rw [made.subjects, subjectIndexBuilt] at found
  split at found
  · exact (Option.some.inj found).symm
  · contradiction

end

end TabularRdf.Generation
