import TabularRdf.Document.Build
import TabularRdf.Proofs.DistinctKeys
import TabularRdf.Proofs.EntryForms
import TabularRdf.Proofs.ExecutionOrder
import TabularRdf.Proofs.MapIndex

/-! What holds of every specification that is read from a document: of each of its maps, of the references
between them, and of the plan. -/
namespace TabularRdf.Mapping

def TriplesMap.SameRows (a b : TriplesMap) : Prop :=
  List.Forall₂ (fun s t => s.sameRows t) a.sources b.sources

structure TriplesMap.Formed (m : TriplesMap) : Prop where
  sources : m.sources ≠ []
  subject : m.subject.Formed
  predicateObjects : ∀ po ∈ m.predicateObjects, po.Formed

/-- A reference of a map names a map whose subjects are not quoted, and without a condition one that reads
the same rows. -/
def Reaches (maps : List TriplesMap) (m : TriplesMap) (mapping : String)
    (condition : Option JoinCondition) : Prop :=
  ∃ other ∈ maps, other.name = mapping ∧ other.subject.quoted = none ∧
    (condition = none → m.SameRows other)

structure Specification.Linked (spec : Specification) : Prop where
  distinct : (spec.maps.map TriplesMap.name).Nodup
  formed : ∀ m ∈ spec.maps, m.Formed
  quoted : ∀ m ∈ spec.maps, ∀ q ∈ m.quotedRefs, Reaches spec.maps m q.mapping q.condition
  referenced : ∀ m ∈ spec.maps, ∀ po ∈ m.predicateObjects, ∀ r, po.object = .reference r →
    Reaches spec.maps m r.mapping r.condition
  ordered : Plan.Ordered spec.maps spec.plan

theorem sameRowsOf {a b : TriplesMap} (shared : a.sharesSources b) : a.SameRows b := by
  simp only [TriplesMap.sharesSources, Bool.and_eq_true, decide_eq_true_eq, List.all_eq_true] at shared
  exact List.forall₂_iff_zip.mpr ⟨shared.1, fun {s t} mem => shared.2 (s, t) mem⟩

end TabularRdf.Mapping

namespace TabularRdf.Document
open Mapping Loading

variable {context : Context} {name : String} {value : Json} {m : TriplesMap}

theorem sourcesFound {named : Named Source} {sources : List Source}
    (loaded : mappingSources name value named = .ok sources) : sources ≠ [] := by
  simp only [mappingSources, boundOk] at loaded
  obtain ⟨_, _, loaded⟩ := loaded
  obtain ⟨found, same⟩ := passedOk.mp loaded
  cases pureOk.mp same
  simpa using found

theorem mapRead (loaded : parseMapping context name value = .ok m) : m.name = name ∧ m.Formed := by
  simp only [parseMapping, boundOk] at loaded
  obtain ⟨s, _, written, _, loaded⟩ := loaded
  cases written with
  | none => cases loaded
  | some written =>
    simp only [boundOk, pureOk] at loaded
    obtain ⟨sources, found, subject, subjects, _, _, _, _, _, _, _, _, pos, entries, rfl⟩ := loaded
    exact ⟨rfl, sourcesFound found, subjectsFormed subjects, predicateObjectsFormed entries⟩

theorem namesRead {fields : Json.Fields} {maps : List TriplesMap}
    (mapped : (fields.mapM fun (name, value) => parseMapping context name value) = .ok maps) :
    maps.map TriplesMap.name = fields.map Prod.fst := by
  have pairs := mappedOk.mp mapped
  clear mapped
  induction pairs with
  | nil => rfl
  | cons head _ ih => rw [List.map_cons, List.map_cons, ih, (mapRead head).1]

structure Reading (document : Json) (context : Context) (root fields : Json.Fields)
    (spec : Specification) : Prop where
  whole : document = .obj root
  mappings : mappingsOf ⟨documentOwner, root⟩ = .ok fields
  maps : (fields.mapM fun (name, value) => parseMapping context name value) = .ok spec.maps
  known : ∀ m ∈ spec.maps, checkKnown (spec.maps.map TriplesMap.name) m = .ok ()
  planned : Plan.build spec.maps = .ok spec.plan
  indexed : spec.Indexed
  checked : ∀ m ∈ spec.maps, checkReferences spec m = .ok ()

def contextOf (spec : Specification) : Context :=
  ⟨spec.sources, spec.targets, spec.external, ⟨spec.prefixes, spec.base, .percent⟩⟩

theorem contextReading {options : BuildOptions} {document : Json} {spec : Specification}
    (built : build options document = .ok spec) :
    ∃ root fields, Reading document (contextOf spec) root fields spec := by
  unfold build at built
  cases document with
  | obj root =>
    simp only [Json.obj?, boundOk, pureOk] at built
    obtain ⟨_, _, _, _, _, _, _, _, _, _, _, _, fields, found, maps, mapped, ⟨⟩, known, made, plans, ⟨⟩,
      checked, rfl⟩ := built
    simp only [Specification.make, boundOk, pureOk] at plans
    obtain ⟨plan, planned, rfl⟩ := plans
    exact ⟨root, fields, rfl, found, mapped, checkedAll.mp known, planned, rfl, checkedAll.mp checked⟩
  | _ => cases built

theorem buildReading {options : BuildOptions} {document : Json} {spec : Specification}
    (built : build options document = .ok spec) :
    ∃ context root fields, Reading document context root fields spec :=
  ⟨contextOf spec, contextReading built⟩

variable {spec : Specification}

theorem fieldFound {s : Section} {keyword : Keyword} {value : Json}
    (found : s.get? keyword = .ok (some value)) : ∃ key, (key, value) ∈ s.fields := by
  unfold Section.get? at found
  split at found
  · cases found
  · rename_i key only written
    cases Option.some.inj (Except.ok.inj found)
    have mem : (key, value) ∈ s.written keyword := written ▸ List.mem_singleton_self _
    obtain ⟨spelling, _, looked⟩ := List.mem_filterMap.mp mem
    obtain ⟨other, lookup, same⟩ := Option.map_eq_some_iff.mp looked
    cases same
    obtain ⟨before, after, split, _⟩ := List.lookup_eq_some_iff.mp lookup
    exact ⟨key, split ▸ List.mem_append_right _ List.mem_cons_self⟩
  · contradiction

theorem keysDistinct {root fields : Json.Fields} (distinct : (Json.obj root).Distinct)
    (found : mappingsOf ⟨documentOwner, root⟩ = .ok fields) : (fields.map Prod.fst).Nodup := by
  simp only [mappingsOf, boundOk] at found
  obtain ⟨written, got, found⟩ := found
  split at found
  · contradiction
  · cases pureOk.mp found
    obtain ⟨key, mem⟩ := fieldFound got
    cases distinct with
    | obj _ each =>
      cases each _ mem with
      | obj keys _ => exact keys
  · contradiction

theorem referenceAllowed {other : TriplesMap} {hasCondition : Bool} {nested unshared : String → Problem}
    (allowed : checkReference m other hasCondition nested unshared = .ok ()) :
    other.subject.quoted = none ∧ (hasCondition = false → m.SameRows other) := by
  unfold checkReference at allowed
  split at allowed
  · contradiction
  · rename_i plain
    split at allowed
    · contradiction
    · rename_i shared
      constructor
      · simpa [TriplesMap.hasQuotedSubject] using plain
      · rintro rfl
        exact sameRowsOf (by simpa using shared)

theorem quotedAllowed (allowed : checkReferences spec m = .ok ()) {q : QuotedRef}
    (reference : q ∈ m.quotedRefs) {other : TriplesMap} (found : spec.get? q.mapping = some other) :
    other.subject.quoted = none ∧ (q.condition = none → m.SameRows other) := by
  simp only [checkReferences, boundOk] at allowed
  obtain ⟨⟨⟩, quotes, _⟩ := allowed
  have passed := checkedAll.mp quotes q reference
  simp only [found] at passed
  obtain ⟨plain, shared⟩ := referenceAllowed passed
  exact ⟨plain, fun none => shared (by simp [none])⟩

theorem namedAllowed (allowed : checkReferences spec m = .ok ()) {po : PredicateObject}
    (listed : po ∈ m.predicateObjects) {r : MappingRef} (reference : po.object = .reference r)
    {other : TriplesMap} (found : spec.get? r.mapping = some other) :
    other.subject.quoted = none ∧ (r.condition = none → m.SameRows other) := by
  simp only [checkReferences, boundOk] at allowed
  obtain ⟨⟨⟩, _, references⟩ := allowed
  have passed := checkedAll.mp references po listed
  simp only [reference, ObjectSpec.reference?, found] at passed
  obtain ⟨plain, shared⟩ := referenceAllowed passed
  exact ⟨plain, fun none => shared (by simp [none])⟩

theorem namedKnown {names : List String} (known : checkKnown names m = .ok ()) {po : PredicateObject}
    (listed : po ∈ m.predicateObjects) {r : MappingRef} (reference : po.object = .reference r) :
    r.mapping ∈ names := by
  have passed := checkedAll.mp known po listed
  simp only [reference, ObjectSpec.reference?] at passed
  split at passed
  · assumption
  · contradiction

theorem reachesFound (indexed : spec.Indexed) (distinct : (spec.maps.map TriplesMap.name).Nodup)
    {mapping : String} {condition : Option JoinCondition} (known : mapping ∈ spec.maps.map TriplesMap.name)
    (allowed : ∀ other, spec.get? mapping = some other →
      other.subject.quoted = none ∧ (condition = none → m.SameRows other)) :
    Reaches spec.maps m mapping condition := by
  obtain ⟨other, mem, rfl⟩ := List.mem_map.mp known
  exact ⟨other, mem, rfl, allowed other (Specification.getOf indexed distinct mem)⟩

theorem readingFormed {document : Json} {context : Context} {root fields : Json.Fields}
    (reading : Reading document context root fields spec) : ∀ m ∈ spec.maps, m.Formed := by
  intro m mem
  obtain ⟨_, _, read⟩ := mappedOrigin reading.maps mem
  exact (mapRead read).2

theorem readingLinked {document : Json} {context : Context} {root fields : Json.Fields}
    (distinct : document.Distinct) (reading : Reading document context root fields spec) : spec.Linked := by
  have names : (spec.maps.map TriplesMap.name).Nodup := by
    rw [namesRead reading.maps]
    exact keysDistinct (reading.whole ▸ distinct) reading.mappings
  obtain ⟨known, ordered⟩ := Plan.buildOrdered names reading.planned
  refine ⟨names, readingFormed reading, ?_, ?_, ordered⟩
  · intro m mem q reference
    exact reachesFound reading.indexed names (known m mem q reference)
      fun _ => quotedAllowed (reading.checked m mem) reference
  · intro m mem po listed r reference
    exact reachesFound reading.indexed names (namedKnown (reading.known m mem) listed reference)
      fun _ => namedAllowed (reading.checked m mem) listed reference

theorem textLinked {options : BuildOptions} {text : String} (built : buildText options text = .ok spec) :
    spec.Linked := by
  unfold buildText at built
  cases given : Json.read? text with
  | none =>
    rw [given] at built
    cases built
  | some document =>
    rw [given] at built
    obtain ⟨context, root, fields, reading⟩ := buildReading built
    exact readingLinked (Json.readDistinct given) reading

theorem buildLinked {options : BuildOptions} {document : Json} (distinct : document.Distinct)
    (built : build options document = .ok spec) : spec.Linked := by
  obtain ⟨context, root, fields, reading⟩ := buildReading built
  exact readingLinked distinct reading

def quotingDocument : Json := .obj [("mappings", .obj [
  ("person", .obj [
    ("sources", .arr [.str "people.csv~csv"]),
    ("s", .str "http://example.org/$(id)"),
    ("po", .arr [.arr [.str "http://example.org/name", .str "$(name)"]])]),
  ("note", .obj [
    ("sources", .arr [.str "notes.csv~csv"]),
    ("s", .obj [
      ("quoted", .str "person"),
      ("condition", .obj [
        ("function", .str "equal"),
        ("parameters", .arr [.arr [.str "str1", .str "$(about)"], .arr [.str "str2", .str "$(id)"]])])]),
    ("po", .arr [.arr [.str "http://example.org/by", .str "$(author)"]])])])]

theorem quotingDocumentLinked : quotingDocument.Distinct ∧
    ∃ spec, build .default quotingDocument = .ok spec ∧ spec.Linked := by
  have distinct : quotingDocument.Distinct := by
    simp [quotingDocument]
  have accepted : (build .default quotingDocument).isOk := by decide +kernel
  cases built : build .default quotingDocument with
  | error problem =>
    rw [built] at accepted
    contradiction
  | ok spec => exact ⟨distinct, spec, rfl, buildLinked distinct built⟩

end TabularRdf.Document
