import TabularRdf.Mapping.Author
import TabularRdf.Mapping.Plan

/-!
A whole document after reading: its maps with the indexes by name and by source, and the plan.
-/
namespace TabularRdf.Mapping

structure Specification where
  maps : List TriplesMap
  prefixes : Named String
  sources : Named Source
  targets : Named Target
  base : Option String
  authors : List Author
  external : Named String
  index : Named Nat
  sourceMaps : Named (List String)
  plan : Plan
  deriving Repr

namespace Specification

def indexName (index : Named Nat) (entry : TriplesMap × Nat) : Named Nat :=
  index.set entry.1.name entry.2

def indexSource (name : String) (index : Named (List String)) (source : Source) :
    Named (List String) :=
  let names := (index.lookup source.key).getD []
  index.set source.key (if name ∈ names then names else names ++ [name])

def indexSources (index : Named (List String)) (m : TriplesMap) : Named (List String) :=
  m.sources.foldl (indexSource m.name) index

def make (maps : List TriplesMap) (prefixes : Named String) (sources : Named Source)
    (targets : Named Target) : Except MappingError Specification := do
  let plan ← Plan.build maps
  return {
    maps, prefixes, sources, targets, plan
    base := none
    authors := []
    external := []
    index := maps.zipIdx.foldl indexName []
    sourceMaps := maps.foldl indexSources [] }

def get? (s : Specification) (name : String) : Option TriplesMap :=
  (s.index.lookup name).bind fun i => s.maps[i]?

def size (s : Specification) : Nat := s.maps.length

def mapsReferencing (s : Specification) (name : String) : List TriplesMap :=
  s.maps.filter fun m => m.referencedMappings.contains name

def mapsForSource (s : Specification) (key : String) : List TriplesMap :=
  ((s.sourceMaps.lookup key).getD []).filterMap s.get?

def nonAsserted (s : Specification) : List String :=
  let quoted := s.maps.flatMap TriplesMap.quotedRefs
  let names := (quoted.filter fun q => !q.asserted).map QuotedRef.mapping
  (names.mergeSort fun a b => (compare a b).isLE).eraseReps

end Specification

end TabularRdf.Mapping
