import TabularRdf.Document.Mapping
import TabularRdf.Proofs.RespelledReferences

/-! A mapping with respelled keys. Its subjects and its entries are read as before, up to the payloads of what is
carried unevaluated. -/
namespace TabularRdf.Document
open Mapping Loading Layout

def pairLevel : Layout := ⟨aliases, fun k => if k = .objects then entryLevel.Items else Eq, aliasesDistinct⟩

def mappingLevel : Layout where
  groups := aliases
  values k := if k = .subjects then entryLevel.Items else if k = .predicateObjects then pairLevel.Items else Eq
  distinct := aliasesDistinct

def EntryObject.sealed : EntryObject → EntryObject
  | .other object => .other object.sealed
  | object => object

def Entry.sealed (entry : Entry) : Entry := { entry with objects := entry.objects.map EntryObject.sealed }

theorem sealedFor (predicate : Predicate) (object : EntryObject) :
    (object.forPredicate predicate).sealed = object.sealed.forPredicate predicate := by
  cases object <;> rfl

theorem sealedResource (object : ObjectSpec) : object.sealed.isResource = object.isResource := by
  cases object <;> rfl

section

variable {owner : String} {fields others : Json.Fields} {value other : Json} (context : Context)

theorem longObjectSealed (respelled : entryLevel.Fields fields others) :
    Together (fun a b => a.sealed = b.sealed) (longObject context ⟨owner, fields⟩)
      (longObject context ⟨owner, others⟩) := by
  have kinds : ∀ k ∈ [Keyword.value, .mapping, .quoted, .quotedNonAsserted, .function], k ≠ .condition ∧
      (k ∈ aliases ∨ ∀ key ∈ k.spellings, ∀ g ∈ aliases, key ∉ g.spellings) := by decide
  have kind := exclusiveSame fun k mem => entryRead respelled owner (kinds k mem).1 (kinds k mem).2
  refine sameLoaded kind fun kind => ?_
  cases kind with
  | none => exact .failed _ _
  | some keyword =>
    dsimp only
    rw [referenceSame context respelled, valueSame context respelled, quotedSame context respelled]
    split
    · exact togetherView _
    · split
      · exact togetherFinished (functionSame respelled) fun a b same => by
          simp only [EntryObject.sealed, ObjectSpec.sealed, same]
      · exact togetherView _

theorem entryObjectSealed (respelled : entryLevel.Respelled value other) :
    Together (fun a b => a.sealed = b.sealed) (entryObject context owner value) (entryObject context owner other) := by
  cases respelled with
  | object fields => exact longObjectSealed context fields
  | other => exact togetherView _

theorem longEntrySealed (respelled : pairLevel.Fields fields others) :
    Together (fun a b => a.sealed = b.sealed) (longEntry context ⟨owner, fields⟩)
      (longEntry context ⟨owner, others⟩) := by
  have read {k : Keyword} (apart : k ≠ .objects) (listed : k ∈ aliases) :
      Section.get? ⟨owner, fields⟩ k = Section.get? ⟨owner, others⟩ k :=
    getSame respelled owner listed (if_neg apart)
  have predicates : itemsUnder ⟨owner, fields⟩ .predicates = itemsUnder ⟨owner, others⟩ .predicates := by
    rw [itemsUnder, itemsUnder, read (by decide) (by decide)]
  have inverse := templatesSame context (read (k := .inversePredicates) (by decide) (by decide))
  have graphs := templatesSame context (read (k := .graphs) (by decide) (by decide))
  have condition := read (k := .condition) (by decide) (by decide)
  have objects : Together (List.Forall₂ entryLevel.Respelled) (itemsUnder ⟨owner, fields⟩ .objects)
      (itemsUnder ⟨owner, others⟩ .objects) := by
    obtain ⟨found, other, one, two, related⟩ := getRelated respelled owner (k := .objects) (by decide)
    rw [itemsUnder, itemsUnder, one, two]
    cases related with
    | none => exact .loaded .nil
    | some items => exact .loaded (itemsRespelled items)
  refine sameLoaded predicates fun items => sameLoaded rfl fun predicates => ?_
  refine togetherBound objects fun items others pairs => ?_
  refine togetherBound (togetherMapped pairs fun _ _ => entryObjectSealed context) fun objects others same => ?_
  have empty : objects.isEmpty = others.isEmpty := by
    rw [← List.isEmpty_map (f := EntryObject.sealed), imagesEqual.mp same, List.isEmpty_map]
  rw [empty]
  split
  · exact .failed _ _
  · refine sameLoaded inverse fun inverse => sameLoaded graphs fun graphs => ?_
    refine sameLoaded condition fun found => sameLoaded rfl fun condition => .loaded ?_
    simp only [Entry.sealed, imagesEqual.mp same]

end

section

variable {owner : String} {entry other : Entry}

theorem pairSealed {object another : EntryObject} (entries : entry.sealed = other.sealed)
    (objects : object.sealed = another.sealed) (predicate : Predicate) (inverse : Option Template) :
    Together (fun a b => a.sealed = b.sealed) (entry.pair owner predicate inverse object)
      (other.pair owner predicate inverse another) := by
  have made : (object.forPredicate predicate).sealed = (another.forPredicate predicate).sealed := by
    rw [sealedFor, sealedFor, objects]
  have resource : (object.forPredicate predicate).isResource = (another.forPredicate predicate).isResource := by
    rw [← sealedResource, made, sealedResource]
  simp only [Entry.sealed, Entry.mk.injEq] at entries
  simp only [Entry.pair, resource]
  split
  · exact .failed _ _
  · refine .loaded ?_
    simp only [PredicateObject.sealed, made, entries]

theorem expandSealed (same : entry.sealed = other.sealed) :
    Together (fun a b => a.map PredicateObject.sealed = b.map PredicateObject.sealed) (entry.expand owner)
      (other.expand owner) := by
  obtain ⟨predicates, objects, inverse, -, -⟩ := Entry.mk.inj same
  have pairs : List.Forall₂ (fun a b => a.sealed = b.sealed) entry.objects other.objects := imagesEqual.mpr objects
  have places : entry.inverseAt = other.inverseAt := by
    funext i
    rw [Entry.inverseAt, Entry.inverseAt, inverse]
  rw [Entry.expand, Entry.expand, predicates, inverse, places]
  split
  · exact .failed _ _
  · refine togetherFinished (R := List.Forall₂ (List.Forall₂ fun a b => a.sealed = b.sealed)) ?_
      fun _ _ rows => imagesEqual.mp (List.rel_flatten rows)
    refine togetherMapped (List.forall₂_same.mpr fun _ _ => rfl) ?_
    rintro _ ⟨predicate, i⟩ rfl
    exact togetherMapped pairs fun _ _ objects => pairSealed same objects predicate _

end

section

variable {owner : String} {fields others : Json.Fields} {value other : Json} (context : Context)

theorem parseEntrySealed (respelled : pairLevel.Respelled value other) :
    Together (fun a b => a.sealed = b.sealed) (parseEntry context owner value) (parseEntry context owner other) := by
  cases respelled with
  | object fields => exact longEntrySealed context fields
  | other => exact togetherView _

theorem predicateObjectsSealed (respelled : mappingLevel.Fields fields others) :
    Together (fun a b => a.map PredicateObject.sealed = b.map PredicateObject.sealed)
      (parsePredicateObjects context ⟨owner, fields⟩) (parsePredicateObjects context ⟨owner, others⟩) := by
  obtain ⟨found, other, one, two, related⟩ :=
    getRelated respelled owner (k := .predicateObjects) (by decide)
  rw [parsePredicateObjects, parsePredicateObjects, one, two]
  cases related with
  | none => exact .loaded rfl
  | some items =>
    cases items with
    | list each =>
      refine togetherFinished (R := List.Forall₂ (List.Forall₂ fun a b => a.sealed = b.sealed)) ?_
        fun _ _ rows => imagesEqual.mp (List.rel_flatten rows)
      refine togetherMapped each fun _ _ item => ?_
      refine togetherBound (parseEntrySealed context item) fun _ _ same => ?_
      exact togetherWeaker (expandSealed same) fun _ _ => imagesEqual.mpr
    | single alone whole =>
      cases whole with
      | object => exact .failed _ _
      | other => exact togetherView _

theorem quotedAlike {spec another : SubjectSpec} (same : spec.sealed = another.sealed) (quoted : QuotedRef) :
    Together (fun a b => a.sealed = b.sealed) (setQuoted owner spec quoted) (setQuoted owner another quoted) := by
  obtain ⟨templates, present, graphs, functions⟩ := SubjectSpec.mk.inj same
  rw [setQuoted, setQuoted, present]
  split
  · exact .failed _ _
  · refine .loaded ?_
    simp only [SubjectSpec.sealed, templates, graphs, functions]

theorem templateAdded {spec another : SubjectSpec} (same : spec.sealed = another.sealed) (text : String) :
    Together (fun a b => a.sealed = b.sealed)
      (context.template text >>= fun t => pure { spec with templates := spec.templates ++ [t] })
      (context.template text >>= fun t => pure { another with templates := another.templates ++ [t] }) := by
  obtain ⟨templates, quoted, graphs, functions⟩ := SubjectSpec.mk.inj same
  refine sameLoaded rfl fun template => .loaded ?_
  simp only [SubjectSpec.sealed, templates, quoted, graphs, functions]

theorem graphsAlike (respelled : entryLevel.Fields fields others) {spec another : SubjectSpec}
    (same : spec.sealed = another.sealed) :
    Together (fun a b => a.sealed = b.sealed) (addGraphs context ⟨owner, fields⟩ spec)
      (addGraphs context ⟨owner, others⟩ another) := by
  have written := templatesSame context (entryRead respelled owner (k := .graphs) (by decide) (by decide))
  obtain ⟨templates, quoted, graphs, functions⟩ := SubjectSpec.mk.inj same
  rw [addGraphs, addGraphs, written]
  refine sameLoaded rfl fun added => .loaded ?_
  simp only [SubjectSpec.sealed, templates, quoted, graphs, functions]

theorem subjectEntrySealed (respelled : entryLevel.Fields fields others) {spec another : SubjectSpec}
    (same : spec.sealed = another.sealed) :
    Together (fun a b => a.sealed = b.sealed) (subjectEntry context ⟨owner, fields⟩ spec)
      (subjectEntry context ⟨owner, others⟩ another) := by
  have kinds : ∀ k ∈ [Keyword.value, .quoted, .quotedNonAsserted, .function], k ≠ .condition ∧
      (k ∈ aliases ∨ ∀ key ∈ k.spellings, ∀ g ∈ aliases, key ∉ g.spellings) := by decide
  have read {k : Keyword} (mem : k ∈ [Keyword.value, .quoted, .quotedNonAsserted, .function]) :=
    entryRead respelled owner (kinds k mem).1 (kinds k mem).2
  refine togetherBound (graphsAlike context respelled same) fun spec another same => ?_
  refine sameLoaded (exclusiveSame fun _ => read) fun kind => ?_
  cases kind with
  | none =>
    dsimp only
    rw [show spec.graphs = another.graphs from (SubjectSpec.mk.inj same).2.2.1]
    split
    · exact .failed _ _
    · exact .loaded same
  | some keyword =>
    dsimp only
    rw [textSame (read (k := .value) (by decide)), read (k := .function) (by decide), quotedSame context respelled]
    split
    · refine sameLoaded rfl fun text => ?_
      cases text with
      | none => exact .loaded same
      | some text => exact templateAdded context same text
    · split
      · refine sameLoaded rfl fun function => ?_
        cases joinOf function with
        | some call => exact sameLoaded rfl fun quoted => quotedAlike same quoted
        | none =>
          refine togetherFinished (functionSame respelled) fun a b alike => ?_
          obtain ⟨templates, quoted, graphs, functions⟩ := SubjectSpec.mk.inj same
          simp only [SubjectSpec.sealed, List.map_append, List.map_cons, List.map_nil, templates, quoted, graphs,
            functions, alike]
      · refine sameLoaded rfl fun quoted => ?_
        cases quoted with
        | none => exact .loaded same
        | some quoted => exact quotedAlike same quoted

theorem subjectAdded (respelled : entryLevel.Respelled value other) {spec another : SubjectSpec}
    (same : spec.sealed = another.sealed) :
    Together (fun a b => a.sealed = b.sealed) (addSubject context owner spec value)
      (addSubject context owner another other) := by
  cases respelled with
  | object fields => exact subjectEntrySealed context fields same
  | other value plain =>
    cases value with
    | obj => cases plain
    | _ => exact sameLoaded rfl fun text => templateAdded context same text

theorem subjectsSealed (respelled : mappingLevel.Fields fields others) :
    Together (fun a b => a.sealed = b.sealed) (parseSubjects context ⟨owner, fields⟩)
      (parseSubjects context ⟨owner, others⟩) := by
  obtain ⟨found, other, one, two, related⟩ := getRelated respelled owner (k := .subjects) (by decide)
  simp only [parseSubjects, one, two, boundLoaded]
  cases related with
  | none => exact .failed _ _
  | some items =>
    refine togetherBound (togetherFolded (itemsRespelled items)
      (fun _ _ _ _ same item => subjectAdded context item same) rfl) fun spec another same => ?_
    obtain ⟨templates, quoted, graphs, functions⟩ := SubjectSpec.mk.inj same
    have empty : spec.functions.isEmpty = another.functions.isEmpty := by
      rw [← List.isEmpty_map (f := Expression.sealed), functions, List.isEmpty_map]
    rw [quoted, templates, empty]
    split
    · exact .failed _ _
    · split
      · exact .failed _ _
      · exact .loaded same

theorem mappingSealed (name : String) (respelled : mappingLevel.Respelled value other) :
    Together (fun a b => a.sealed = b.sealed) (parseMapping context name value) (parseMapping context name other) := by
  cases respelled with
  | other => exact togetherView _
  | object fields =>
    have read {k : Keyword} (listed : k ∈ aliases) (subjects : k ≠ .subjects) (entries : k ≠ .predicateObjects) :=
      getSame fields name listed (by simp only [mappingLevel, subjects, entries, if_false])
    have sources := read (k := .sources) (by decide) (by decide) (by decide)
    have targets := read (k := .targets) (by decide) (by decide) (by decide)
    have graphs := templatesSame context (read (k := .graphs) (by decide) (by decide) (by decide))
    have condition := read (k := .condition) (by decide) (by decide) (by decide)
    simp only [parseMapping, Section.ofValue, boundLoaded, targetsUnder, sources, targets, graphs, condition]
    refine sameLoaded rfl fun written => ?_
    cases written with
    | none => exact .failed _ _
    | some written =>
      refine sameLoaded rfl fun sources => ?_
      refine togetherBound (subjectsSealed context fields) fun _ _ subjects => ?_
      refine sameLoaded rfl fun targets => sameLoaded rfl fun graphs => ?_
      refine sameLoaded rfl fun found => sameLoaded rfl fun condition => ?_
      refine togetherFinished (predicateObjectsSealed context fields) fun _ _ entries => ?_
      simp only [TriplesMap.sealed, subjects, entries]

end

end TabularRdf.Document
