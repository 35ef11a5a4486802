import TabularRdf.Mapping.TriplesMap

/-!
The order in which maps run. A map that quotes another needs all of that map's quads, so maps are placed
on levels: a map stands one level above the highest map it quotes. Only quoted references count, since a
reference to subjects reads the other map's tables and not its quads.
-/
namespace TabularRdf.Mapping

structure Plan where
  levels : List (List String)
  deriving DecidableEq, Repr

namespace Plan

def order (p : Plan) : List String := p.levels.flatten

def position? (maps : List TriplesMap) (name : String) : Option Nat :=
  (maps.zipIdx.filter fun (m, _) => m.name = name).getLast?.map Prod.snd

structure Graph where
  dependencies : List (List Nat)
  dependents : List (List Nat)
  deriving DecidableEq, Repr

namespace Graph

def empty (size : Nat) : Graph := ⟨List.replicate size [], List.replicate size []⟩

def dependenciesOf (g : Graph) (i : Nat) : List Nat := g.dependencies[i]?.getD []

def dependentsOf (g : Graph) (j : Nat) : List Nat := g.dependents[j]?.getD []

def link (g : Graph) (i j : Nat) : Graph :=
  if j ∈ g.dependenciesOf i then g
  else ⟨g.dependencies.modify i (· ++ [j]), g.dependents.modify j (· ++ [i])⟩

end Graph

def linkQuote (maps : List TriplesMap) (m : TriplesMap) (i : Nat) (g : Graph) (q : QuotedRef) :
    Except MappingError Graph :=
  match position? maps q.mapping with
  | some j => .ok (g.link i j)
  | none => .error (.unknownMapping m.name q.mapping)

def graphOf (maps : List TriplesMap) : Except MappingError Graph :=
  maps.zipIdx.foldlM (fun g (m, i) => m.quotedRefs.foldlM (linkQuote maps m i) g)
    (.empty maps.length)

structure Countdown where
  remaining : List Nat
  ready : List Nat
  deriving DecidableEq, Repr

def Countdown.lower (c : Countdown) (i : Nat) : Option Countdown :=
  match c.remaining[i]? with
  | some (n + 1) => some ⟨c.remaining.set i n, if n = 0 then c.ready ++ [i] else c.ready⟩
  | _ => none

def release (g : Graph) (level remaining : List Nat) : Option Countdown :=
  (level.flatMap g.dependentsOf).foldlM Countdown.lower ⟨remaining, []⟩

def outstanding (counters : List Nat) : Nat := counters.foldr (· + ·) 0

theorem sumSetPred {counters : List Nat} {i n : Nat} (h : counters[i]? = some (n + 1)) :
    outstanding (counters.set i n) + 1 = outstanding counters := by
  induction counters generalizing i with
  | nil => simp at h
  | cons first rest ih =>
    cases i with
    | zero => simp only [List.getElem?_cons_zero, Option.some.injEq] at h
              simp only [outstanding, List.set_cons_zero, List.foldr_cons]; omega
    | succ i => have tail := ih (by simpa using h)
                simp only [outstanding, List.set_cons_succ, List.foldr_cons] at tail ⊢; omega

theorem lowerSum {c d : Countdown} {i : Nat} (h : c.lower i = some d) :
    outstanding d.remaining + 1 = outstanding c.remaining ∧ d.ready.length ≤ c.ready.length + 1 := by
  unfold Countdown.lower at h
  split at h <;> try contradiction
  rename_i n atPlace
  cases Option.some.inj h
  exact ⟨sumSetPred atPlace, by dsimp only; split <;> simp⟩

theorem releaseSum {g : Graph} {level remaining : List Nat} {c : Countdown}
    (h : release g level remaining = some c) :
    outstanding c.remaining + c.ready.length ≤ outstanding remaining := by
  have run : ∀ (edges : List Nat) (before after : Countdown),
      edges.foldlM Countdown.lower before = some after →
      outstanding after.remaining + after.ready.length ≤
        outstanding before.remaining + before.ready.length := by
    intro edges
    induction edges with
    | nil => intro before after h; cases Option.some.inj h; exact Nat.le_refl _
    | cons i rest ih =>
      intro before after h
      simp only [List.foldlM_cons, bind, Option.bind_eq_some_iff] at h
      obtain ⟨next, lowered, h⟩ := h
      have step := lowerSum lowered
      have tail := ih next after h
      omega
  simpa using run _ _ _ h

def layers (g : Graph) (current remaining : List Nat) : Option (List (List Nat) × List Nat) :=
  if current.isEmpty then some ([], remaining)
  else
    match _released : release g current remaining with
    | none => none
    | some c =>
      (layers g c.ready.mergeSort c.remaining).map fun (levels, left) => (current :: levels, left)
  termination_by outstanding remaining + (if current.isEmpty then 0 else 1)
  decreasing_by
    have less := releaseSum _released
    have same : c.ready.mergeSort.length = c.ready.length := List.length_mergeSort _
    rename_i current
    rw [if_neg current]
    split
    · omega
    · rename_i ready
      rw [List.isEmpty_iff_length_eq_zero] at ready
      omega

/- Follows the first dependency that is stuck until a place comes again. The path is from that place on,
with the place once more at its end. -/
def walk (g : Graph) (stuck path : List Nat) (here : Nat) : List Nat :=
  match _found : (g.dependenciesOf here).find? stuck.contains with
  | none => path
  | some next =>
    if next ∈ path then path.dropWhile (· ≠ next) ++ [next]
    else walk g stuck (path ++ [next]) next
  termination_by (stuck.filter fun i => i ∉ path).length
  decreasing_by
    rename_i fresh
    have member : next ∈ stuck := by simpa using List.find?_some _found
    have shrink : (stuck.filter fun i => i ∉ path ++ [next]) =
        (stuck.filter fun i => i ∉ path).filter fun i => i ≠ next := by
      rw [List.filter_filter]
      exact List.filter_congr fun i _ => by simp [and_comm]
    rw [shrink, List.length_filter_lt_length_iff_exists]
    exact ⟨next, List.mem_filter.mpr ⟨member, by simpa using fresh⟩, by simp⟩

def cyclePath (g : Graph) (stuck : List Nat) : List Nat :=
  match stuck with
  | [] => []
  | start :: _ => walk g stuck [start] start

def nameAt (maps : List TriplesMap) (i : Nat) : String :=
  (maps[i]?.map TriplesMap.name).getD ""

def build (maps : List TriplesMap) : Except MappingError Plan := do
  let graph ← graphOf maps
  let places := List.range maps.length
  let remaining := graph.dependencies.map List.length
  match layers graph (places.filter fun i => remaining[i]? = some 0) remaining with
  | none => throw (.document .counterBelowZero)
  | some (levels, left) =>
    if levels.flatten.length < maps.length then
      let stuck := places.filter fun i => 0 < left[i]?.getD 0
      throw (.referenceCycle ((cyclePath graph stuck).map (nameAt maps)))
    else return ⟨levels.map fun level => level.map (nameAt maps)⟩

end Plan

end TabularRdf.Mapping
