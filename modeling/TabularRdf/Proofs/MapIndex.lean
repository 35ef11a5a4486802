import TabularRdf.Mapping.Specification
import TabularRdf.Proofs.QuoteGraph

/-! Maps looked up by name. The index of a specification holds for each name the place of the last map of
that name, as the plan takes it. -/
namespace TabularRdf.Mapping.Specification

def Indexed (s : Specification) : Prop := s.index = s.maps.zipIdx.foldl indexName []

theorem indexedPlace (maps : List TriplesMap) (name : String) (k : Nat) (table : Named Nat) :
    ((maps.zipIdx k).foldl indexName table).lookup name =
      (((maps.zipIdx k).filter fun (m, _) => m.name = name).getLast?.map Prod.snd).or
        (table.lookup name) := by
  induction maps generalizing k table with
  | nil => rfl
  | cons m maps ih =>
    rw [List.zipIdx_cons, List.foldl_cons, ih]
    unfold indexName
    by_cases same : m.name = name
    · rw [List.filter_cons_of_pos (by simpa using same), List.getLast?_cons, ← same,
        Named.lookupSelf]
      cases ((maps.zipIdx (k + 1)).filter fun (n, _) => n.name = m.name).getLast? <;> rfl
    · rw [List.filter_cons_of_neg (by simpa using same), Named.lookupOther (Ne.symm same)]

variable {s : Specification} (indexed : s.Indexed)
include indexed

theorem getPlace (name : String) :
    s.get? name = (Plan.position? s.maps name).bind fun i => s.maps[i]? := by
  have place := indexedPlace s.maps name 0 []
  unfold get?
  rw [indexed, place]
  simp [Plan.position?]

theorem gotNamed {name : String} {m : TriplesMap} (found : s.get? name = some m) :
    m ∈ s.maps ∧ m.name = name := by
  rw [getPlace indexed] at found
  obtain ⟨i, place, atPlace⟩ := Option.bind_eq_some_iff.mp found
  obtain ⟨n, there, named⟩ := Plan.positionFound place
  rw [there] at atPlace
  cases Option.some.inj atPlace
  exact ⟨List.mem_of_getElem? there, named⟩

theorem getOf (distinct : (s.maps.map TriplesMap.name).Nodup) {m : TriplesMap} (mem : m ∈ s.maps) :
    s.get? m.name = some m := by
  obtain ⟨i, atPlace⟩ := List.mem_iff_getElem?.mp mem
  rw [getPlace indexed, Plan.positionOf distinct atPlace]
  exact atPlace

end TabularRdf.Mapping.Specification
