import TabularRdf.Proofs.MapIndex
import TabularRdf.Proofs.SortedKeys

/-! What a specification looks up against what its maps say. The index of sources holds names, entered source by
source with a test for repetition; behind each key it holds the maps that read the key, as a scan would list them. -/
namespace TabularRdf.Mapping.Specification
open Std

def namesAt (index : Named (List String)) (key : String) : List String := (index.lookup key).getD []

theorem sourceEntered (name key : String) (index : Named (List String)) (source : Source) :
    namesAt (indexSource name index source) key =
      if source.key = key ∧ name ∉ namesAt index key then namesAt index key ++ [name] else namesAt index key := by
  unfold namesAt indexSource
  by_cases same : source.key = key
  · subst same
    rw [Named.lookupSelf]
    split <;> simp_all
  · rw [Named.lookupOther (Ne.symm same), if_neg fun both => same both.1]

theorem sourcesEntered (name key : String) (sources : List Source) (index : Named (List String)) :
    namesAt (sources.foldl (indexSource name) index) key =
      if (∃ source ∈ sources, source.key = key) ∧ name ∉ namesAt index key then namesAt index key ++ [name]
      else namesAt index key := by
  induction sources generalizing index with
  | nil => simp
  | cons source rest ih =>
    rw [List.foldl_cons, ih, sourceEntered]
    by_cases known : name ∈ namesAt index key
    · simp [known]
    · by_cases here : source.key = key
      · simp [here, known]
      · simp [here, known]

theorem mapEntered (m : TriplesMap) (key : String) (index : Named (List String)) :
    namesAt (indexSources index m) key =
      if m.readsSource key ∧ m.name ∉ namesAt index key then namesAt index key ++ [m.name] else namesAt index key := by
  rw [indexSources, sourcesEntered]
  simp [TriplesMap.readsSource]

theorem mapsEntered (key : String) {maps : List TriplesMap} (distinct : (maps.map TriplesMap.name).Nodup)
    {index : Named (List String)} (fresh : ∀ m ∈ maps, m.name ∉ namesAt index key) :
    namesAt (maps.foldl indexSources index) key =
      namesAt index key ++ (maps.filter fun m => m.readsSource key).map TriplesMap.name := by
  induction maps generalizing index with
  | nil => simp
  | cons m rest ih =>
    obtain ⟨alone, later⟩ := List.nodup_cons.mp distinct
    obtain ⟨absent, others⟩ := List.forall_mem_cons.mp fresh
    have entered := mapEntered m key index
    by_cases reads : m.readsSource key
    · rw [if_pos ⟨reads, absent⟩] at entered
      have kept : ∀ n ∈ rest, n.name ∉ namesAt (indexSources index m) key := by
        intro n mem listed
        rw [entered, List.mem_append, List.mem_singleton] at listed
        rcases listed with before | same
        · exact others n mem before
        · exact alone (same ▸ List.mem_map_of_mem mem)
      rw [List.foldl_cons, ih later kept, entered, List.filter_cons_of_pos (by simpa using reads), List.map_cons,
        List.append_assoc, List.singleton_append]
    · rw [if_neg fun both => reads both.1] at entered
      rw [List.foldl_cons, ih later (entered ▸ others), entered, List.filter_cons_of_neg (by simpa using reads)]

structure Scanned (s : Specification) : Prop where
  named : ∀ name m, s.get? name = some m ↔ m ∈ s.maps ∧ m.name = name
  reading : ∀ key, s.mapsForSource key = s.maps.filter fun m => m.readsSource key
  once : ∀ key, (s.mapsForSource key).Nodup
  ordered : s.nonAsserted.Pairwise (· < ·)
  quoted : ∀ name, name ∈ s.nonAsserted ↔ ∃ m ∈ s.maps, ∃ q ∈ m.quotedRefs, q.asserted = false ∧ q.mapping = name

section

variable {s : Specification} (distinct : (s.maps.map TriplesMap.name).Nodup) (indexed : s.Indexed)
include distinct indexed

theorem gotExactly (name : String) (m : TriplesMap) : s.get? name = some m ↔ m ∈ s.maps ∧ m.name = name := by
  refine ⟨gotNamed indexed, ?_⟩
  rintro ⟨mem, rfl⟩
  exact getOf indexed distinct mem

theorem readersFiltered (entered : s.sourceMaps = s.maps.foldl indexSources []) (key : String) :
    s.mapsForSource key = s.maps.filter fun m => m.readsSource key := by
  have fresh : ∀ m ∈ s.maps, m.name ∉ namesAt [] key := by simp [namesAt]
  have names := mapsEntered key distinct fresh
  have listed : s.mapsForSource key = (namesAt s.sourceMaps key).filterMap s.get? := rfl
  rw [listed, entered, names, List.filterMap_append, List.filterMap_map]
  have found : ∀ m ∈ s.maps.filter fun m => m.readsSource key, (s.get? ∘ TriplesMap.name) m = some m :=
    fun m mem => getOf indexed distinct (List.mem_of_mem_filter mem)
  rw [List.filterMap_congr found]
  simp [namesAt]

theorem readersOnce (entered : s.sourceMaps = s.maps.foldl indexSources []) (key : String) :
    (s.mapsForSource key).Nodup := by
  have once : s.maps.Nodup := List.Nodup.of_map _ distinct
  rw [readersFiltered distinct indexed entered]
  exact once.filter _

end

theorem textsStrict (texts : List String) :
    (texts.mergeSort fun a b => (compare a b).isLE).eraseReps.Pairwise (· < ·) := by
  have total (a b : String) : (compare a b).isLE || (compare b a).isLE := by
    have swapped : compare a b = (compare b a).swap := OrientedCmp.eq_swap
    rw [swapped]
    cases compare b a <;> rfl
  have sorted := List.pairwise_mergeSort (fun _ _ _ => TransCmp.isLE_trans) total texts
  have antisymmetric (a b : String) (first : (compare a b).isLE) (second : (compare b a).isLE) : a = b :=
    LawfulEqOrd.eq_of_compare (OrientedCmp.isLE_antisymm first second)
  refine (erasedStrict antisymmetric sorted).imp fun {a b} ⟨first, apart⟩ => ?_
  rcases Ordering.isLE_iff_eq_lt_or_eq_eq.mp first with less | equal
  · exact LawfulLTCmp.eq_lt_iff_lt.mp less
  · exact absurd (LawfulEqOrd.eq_of_compare equal) apart

theorem memNonAsserted {s : Specification} {name : String} : name ∈ s.nonAsserted ↔
    ∃ m ∈ s.maps, ∃ q ∈ m.quotedRefs, q.asserted = false ∧ q.mapping = name := by
  simp only [nonAsserted, memErased, List.mem_mergeSort, List.mem_map, List.mem_filter, List.mem_flatMap,
    Bool.not_eq_true']
  constructor
  · rintro ⟨q, ⟨⟨m, mem, reference⟩, bare⟩, rfl⟩
    exact ⟨m, mem, q, reference, bare, rfl⟩
  · rintro ⟨m, mem, q, reference, bare, rfl⟩
    exact ⟨q, ⟨⟨m, mem, reference⟩, bare⟩, rfl⟩

theorem madeScanned {maps : List TriplesMap} (distinct : (maps.map TriplesMap.name).Nodup) {prefixes : Named String}
    {sources : Named Source} {targets : Named Target} {s : Specification}
    (made : make maps prefixes sources targets = .ok s) (base : Option String) (authors : List Author)
    (external : Named String) :
    s.maps = maps ∧ Scanned { s with base, authors, external } := by
  simp only [make, Loading.boundOk, Loading.pureOk] at made
  obtain ⟨plan, -, rfl⟩ := made
  exact ⟨rfl, gotExactly distinct rfl, readersFiltered distinct rfl rfl, readersOnce distinct rfl rfl,
    textsStrict _, fun name => memNonAsserted⟩

def peopleMap : TriplesMap where
  name := "people"
  sources := [⟨none, "all.json", .jsonPath, some "$.staff", none, none, []⟩,
    ⟨none, "all.json", .jsonPath, some "$.guests", none, none, []⟩]
  targets := []
  subject := ⟨[], none, [], []⟩
  predicateObjects := []
  graphs := []
  condition := none

def notesMap : TriplesMap where
  name := "notes"
  sources := [.plain "notes.csv" .csv, .plain "all.json" .jsonPath]
  targets := []
  subject := ⟨[], some ⟨"people", false, none, .all⟩, [], []⟩
  predicateObjects := []
  graphs := []
  condition := none

theorem notesScanned : (["notes", "people"] : List String).Nodup ∧ ∃ s, make [notesMap, peopleMap] [] [] [] = .ok s ∧
    Scanned { s with base := some "http://example.org/", authors := [], external := [] } ∧
    s.mapsForSource "all.json" = [notesMap, peopleMap] ∧ s.nonAsserted = ["people"] := by
  have accepted : (make [notesMap, peopleMap] [] [] []).isOk := by decide +kernel
  cases made : make [notesMap, peopleMap] [] [] [] with
  | error e =>
    rw [made] at accepted
    cases accepted
  | ok s =>
    obtain ⟨maps, scanned⟩ := madeScanned (by decide) made (some "http://example.org/") [] []
    have reading : s.mapsForSource "all.json" = s.maps.filter fun m => m.readsSource "all.json" :=
      scanned.reading "all.json"
    refine ⟨by decide, s, rfl, scanned, ?_, ?_⟩
    · rw [reading, maps]
      rfl
    · rw [nonAsserted, maps]
      decide +kernel

end TabularRdf.Mapping.Specification
