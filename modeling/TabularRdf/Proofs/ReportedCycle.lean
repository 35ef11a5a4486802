import TabularRdf.Proofs.ExecutionOrder

/-! The cycle that is reported when planning fails. The walk among the maps that are stuck counts no rounds; it comes
back to its own path within as many rounds as there are maps, and always before it finds nothing to go on with. Read
by name, what it reports is a cycle of quoted references. -/
namespace TabularRdf.Mapping.Plan

variable {maps : List TriplesMap}

inductive Ending where
  | back (path : List Nat)
  | lost (path : List Nat)
  | unfinished
  deriving DecidableEq, Repr

def follow (g : Graph) (stuck : List Nat) : Nat → List Nat → Nat → Ending
  | 0, _, _ => .unfinished
  | rounds + 1, path, here =>
    match (g.dependenciesOf here).find? stuck.contains with
    | none => .lost path
    | some next =>
      if next ∈ path then .back (path.dropWhile (· ≠ next) ++ [next])
      else follow g stuck rounds (path ++ [next]) next

/- The path of a walk holds no place twice, so there are no more rounds than places left to go to. -/
theorem followBack {g : Graph} {stuck : List Nat} (serial : ∀ i ∈ stuck, ∃ j ∈ g.dependenciesOf i, j ∈ stuck)
    {rounds here : Nat} {path : List Nat} (last : path.getLast? = some here) (once : path.Nodup)
    (inside : ∀ i ∈ path, i ∈ stuck) (enough : stuck.length < rounds + path.length) :
    follow g stuck rounds path here = .back (walk g stuck path here) := by
  induction rounds generalizing path here with
  | zero =>
    have few := (List.subperm_of_subset once inside).length_le
    omega
  | succ rounds ih =>
    rw [follow]
    cases found : (g.dependenciesOf here).find? stuck.contains with
    | none =>
      obtain ⟨j, quoted, waiting⟩ := serial here (inside here (List.mem_of_getLast? last))
      exact absurd waiting (by simpa using List.find?_eq_none.mp found j quoted)
    | some next =>
      rw [walkOn found]
      dsimp only
      by_cases seen : next ∈ path
      · rw [if_pos seen, if_pos seen]
      · have waiting : next ∈ stuck := by simpa using List.find?_some found
        have longer : (path ++ [next]).length = path.length + 1 := List.length_append
        rw [if_neg seen, if_neg seen]
        refine ih List.getLast?_concat (by simpa using once.concat seen) ?_ (by omega)
        intro i mem
        rcases List.mem_append.mp mem with old | new
        · exact inside i old
        · exact List.mem_singleton.mp new ▸ waiting

structure Halted (maps : List TriplesMap) (g : Graph) (stuck : List Nat) : Prop where
  loaded : graphOf maps = .ok g
  counted : ∃ levels left, layers g
      ((List.range maps.length).filter fun i => (g.dependencies.map List.length)[i]? = some 0)
      (g.dependencies.map List.length) = some (levels, left) ∧
    stuck = (List.range maps.length).filter fun i => 0 < left[i]?.getD 0

theorem sourcesOfChain {α : Type} {step : α → α → Prop} {path : List α} (linked : path.IsChain step) :
    ∀ a ∈ path.dropLast, ∃ b, step a b := by
  induction linked with
  | nil => simp
  | singleton => simp
  | cons_cons first _ ih =>
    intro a mem
    rw [List.dropLast_cons_cons, List.mem_cons] at mem
    rcases mem with rfl | later
    · exact ⟨_, first⟩
    · exact ih a later

theorem cycleNamed (distinct : (maps.map TriplesMap.name).Nodup) {path : List Nat} (cycle : Cycle (Edge maps) path) :
    Cycle (Quotes maps) (path.map (nameAt maps)) := by
  have bounds : ∀ i ∈ path.dropLast, i < maps.length := fun i mem =>
    (sourcesOfChain cycle.linked i mem).elim fun _ edge => (edgeInside edge).1
  refine ⟨?_, ?_, ?_, ?_⟩
  · rw [List.length_map]
    exact cycle.long
  · rw [List.head?_map, List.getLast?_map, cycle.closed]
  · rw [← List.map_dropLast]
    refine cycle.once.map_on fun i left j right same => ?_
    exact samePlace distinct (bounds i left) (bounds j right) same
  · exact (List.isChain_map _).mpr (cycle.linked.imp fun _ _ => edgeQuotes)

theorem cycleReported (distinct : (maps.map TriplesMap.name).Nodup) {path : List String}
    (failed : build maps = .error (.referenceCycle path)) :
    Cycle (Quotes maps) path ∧ ∃ g start rest places, Halted maps g (start :: rest) ∧
      follow g (start :: rest) maps.length [start] start = .back places ∧ path = places.map (nameAt maps) := by
  cases loaded : graphOf maps with
  | error e =>
    obtain ⟨m, _, q, _, _, rfl⟩ := graphUnknown loaded
    rw [build, loaded] at failed
    cases failed
  | ok g =>
    have held := graphHolds loaded
    obtain ⟨levels, left, run, layered, counted⟩ :=
      layersRun held (fun _ _ => edgeInside) (firstReady held) (by simp) (firstCounted held)
    rw [buildLayered loaded run] at failed
    split at failed
    · rename_i few
      cases failed
      have cycle := stuckCycle held layered counted few
      obtain ⟨some, serial⟩ := stuckSerial held layered counted few
      have size := List.length_filter_le (fun i => 0 < left[i]?.getD 0) (List.range maps.length)
      have halted : Halted maps g ((List.range maps.length).filter fun i => 0 < left[i]?.getD 0) :=
        ⟨loaded, levels, left, run, rfl⟩
      refine ⟨cycleNamed distinct cycle, ?_⟩
      generalize (List.range maps.length).filter (fun i => 0 < left[i]?.getD 0) = stuck at *
      cases stuck with
      | nil => contradiction
      | cons start rest =>
        refine ⟨g, start, rest, _, halted, followBack serial rfl (by simp) (by simp) ?_, rfl⟩
        rw [List.length_range] at size
        simpa using Nat.lt_succ_of_le size
    · cases failed

def checksMaps : List TriplesMap :=
  [bare "report" (some "notes"), bare "notes" (some "checks"), bare "checks" (some "notes")]

theorem checksReported : (checksMaps.map TriplesMap.name).Nodup ∧
    build checksMaps = .error (.referenceCycle ["notes", "checks", "notes"]) ∧
    Cycle (Quotes checksMaps) ["notes", "checks", "notes"] ∧ ∃ g start rest places,
      Halted checksMaps g (start :: rest) ∧ follow g (start :: rest) 3 [start] start = .back places ∧
      ["notes", "checks", "notes"] = places.map (nameAt checksMaps) := by
  have failed : build checksMaps = .error (.referenceCycle ["notes", "checks", "notes"]) := by decide +kernel
  exact ⟨by decide, failed, cycleReported (by decide) failed⟩

end TabularRdf.Mapping.Plan
