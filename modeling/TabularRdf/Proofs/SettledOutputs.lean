import TabularRdf.Proofs.ExecutionOrder
import TabularRdf.Proofs.Locality
import TabularRdf.Proofs.Preparation
import TabularRdf.Proofs.RunStages

/-! What the maps have put out in the end. However the rounds are laid, a map that runs after all that it quotes
puts out what it would put out if it saw the outputs of all maps; and outputs of this kind are determined by
what the maps refer to, from the maps that quote nothing upwards. -/
namespace TabularRdf.Generation
open Iri Mapping Loading

structure Rounds (maps : List TriplesMap) (rounds : List (List String)) : Prop where
  once : rounds.flatten.Perm (maps.map TriplesMap.name)
  later : ∀ m ∈ maps, ∀ q ∈ m.quotedRefs, Plan.rankOf rounds q.mapping < Plan.rankOf rounds m.name

theorem planRounds {maps : List TriplesMap} {p : Plan} (ordered : p.Ordered maps) : Rounds maps p.levels :=
  ⟨ordered.once, ordered.earlier⟩

theorem lowerPlaced {rounds : List (List String)} {name other : String}
    (lower : Plan.rankOf rounds other < Plan.rankOf rounds name) : other ∈ rounds.flatten := by
  have bound : Plan.rankOf rounds other < rounds.length := lower.trans_le List.findIdx_le_length
  obtain ⟨round, listed, inside⟩ := List.findIdx_lt_length.mp bound
  exact List.mem_flatten.mpr ⟨round, listed, List.contains_iff_mem.mp inside⟩

def Setup.Settled (setup : Setup) (maps : List TriplesMap) (outputs : Named MapOutput) : Prop :=
  ∀ m ∈ maps, ∃ ready, setup.prepared.lookup m.name = some ready ∧
    outputs.lookup m.name = some (setup.output outputs ready)

section

variable {setup : Setup} {maps : List TriplesMap} {provider : TableProvider}
  (loaded : prepareAll provider setup.resolver maps = .ok setup.prepared)
  (distinct : (maps.map TriplesMap.name).Nodup)
include loaded distinct

theorem outputKept {m : TriplesMap} (mem : m ∈ maps) {ready : Prepared}
    (found : setup.prepared.lookup m.name = some ready) {seen outputs : Named MapOutput}
    (same : ∀ q ∈ m.quotedRefs, seen.lookup q.mapping = outputs.lookup q.mapping) :
    setup.output seen ready = setup.output outputs ready := by
  obtain ⟨other, there, done⟩ := preparedOf loaded distinct mem
  cases Option.some.inj (found.symm.trans there)
  have alike : JoinContext.Alike ready.map (setup.context seen) (setup.context outputs) := by
    refine ⟨fun key listed => ?_, fun _ _ => rfl, fun _ _ => rfl⟩
    obtain ⟨q, reference, rfl⟩ := quoteKeyOrigin (prepareOk done).2 listed
    exact same q reference
  exact generatedAlike alike (.refl setup.resolver) ready.tables

theorem roundsSettle {rounds : List (List String)} (laid : Rounds maps rounds) {outputs : Named MapOutput}
    (ran : setup.runLevels rounds = .ok outputs) : setup.Settled maps outputs := by
  have once : rounds.flatten.Nodup := laid.once.nodup_iff.mpr distinct
  intro m mem
  have placed : m.name ∈ rounds.flatten := laid.once.mem_iff.mpr (List.mem_map_of_mem mem)
  obtain ⟨seen, ready, ⟨before, round, after, split, here, ranBefore⟩, found, output⟩ :=
    earlierSeen once (List.append_nil rounds).symm ran placed
  refine ⟨ready, found, output.trans (congrArg some ?_)⟩
  refine outputKept loaded distinct mem found fun q reference => ?_
  -- what `m` quotes ran before the round of `m`, and no later round runs it again
  have early : q.mapping ∈ before.flatten :=
    placedBefore split here (lowerPlaced (laid.later m mem q reference)) (laid.later m mem q reference)
  subst split
  obtain ⟨middle, ranFirst, rest⟩ := levelsSplit ran
  cases Except.ok.inj (ranFirst.symm.trans ranBefore)
  rw [List.flatten_append] at once
  exact (levelsKeep rest fun late => (List.nodup_append.mp once).2.2 _ early _ late rfl).symm

end

structure Setup.Shares (left right : Setup) (name : String) (ready : Prepared) : Prop where
  first : left.prepared.lookup name = some ready
  second : right.prepared.lookup name = some ready
  quotes : ∀ key ∈ ready.map.quoteKeys, left.quoteIndexes.lookup key = right.quoteIndexes.lookup key
  subjects : ∀ key ∈ ready.map.subjectKeys, left.subjectIndexes.lookup key = right.subjectIndexes.lookup key

structure Common (left right : Setup) (maps others : List TriplesMap) (inside : String → Prop) : Prop where
  resolver : left.resolver.Alike right.resolver
  shared : ∀ m ∈ maps, inside m.name → m ∈ others
  known : ∀ m ∈ maps, inside m.name → ∀ q ∈ m.quotedRefs,
    inside q.mapping ∧ q.mapping ∈ maps.map TriplesMap.name
  ready : ∀ m ∈ maps, inside m.name → ∃ ready, left.Shares right m.name ready

theorem settledAlike {left right : Setup} {maps others : List TriplesMap} {inside : String → Prop}
    (common : Common left right maps others inside) {provider : TableProvider}
    (loaded : prepareAll provider left.resolver maps = .ok left.prepared)
    (distinct : (maps.map TriplesMap.name).Nodup) {rounds : List (List String)} (laid : Rounds maps rounds)
    {outputs results : Named MapOutput} (first : left.Settled maps outputs)
    (second : right.Settled others results) {m : TriplesMap} (mem : m ∈ maps) (here : inside m.name) :
    ∃ output, outputs.lookup m.name = some output ∧ results.lookup m.name = some output := by
  -- on the round of the map: what it quotes stands in earlier rounds
  induction rank : Plan.rankOf rounds m.name using Nat.strongRecOn generalizing m with
  | ind n ih =>
    subst rank
    obtain ⟨ready, shares⟩ := common.ready m mem here
    obtain ⟨own, prepared, output⟩ := first m mem
    obtain ⟨other, there, result⟩ := second m (common.shared m mem here)
    cases Option.some.inj (prepared.symm.trans shares.first)
    cases Option.some.inj (there.symm.trans shares.second)
    refine ⟨_, output, result.trans (congrArg some ?_)⟩
    obtain ⟨same, found, done⟩ := preparedOf loaded distinct mem
    cases Option.some.inj (found.symm.trans shares.first)
    have alike : JoinContext.Alike ready.map (left.context outputs) (right.context results) := by
      refine ⟨fun key listed => ?_, shares.quotes, shares.subjects⟩
      obtain ⟨q, reference, rfl⟩ := quoteKeyOrigin (prepareOk done).2 listed
      obtain ⟨within, target⟩ := common.known m mem here q reference
      obtain ⟨n, quoted, named⟩ := List.mem_map.mp target
      have lower := laid.later m mem q reference
      rw [← named] at lower within
      obtain ⟨given, ofLeft, ofRight⟩ := ih _ lower quoted within rfl
      change outputs.lookup q.mapping = results.lookup q.mapping
      rw [← named, ofLeft, ofRight]
    exact (generatedAlike alike common.resolver ready.tables).symm

end TabularRdf.Generation
