import TabularRdf.Proofs.DirectReadings
import TabularRdf.Proofs.NamedUpdates

/-! Absolute IRIs. With a base and namespaces that start with a scheme, a column value that is an IRI reference of its
own becomes absolute whatever it is. A longer text that starts with a column is only expanded: when the part before
its first colon is neither a prefix nor a scheme, it is taken for a name with an unknown prefix and stays as written. -/
namespace TabularRdf.Iri

def Absolute (text : String) : Prop :=
  ∃ scheme rest, text.toList = scheme ++ ':' :: rest ∧ isScheme scheme

theorem schemeChars {scheme : List Char} (valid : isScheme scheme) : ∀ c ∈ scheme, isSchemeChar c := by
  cases scheme with
  | nil => exact absurd valid (by decide)
  | cons c rest =>
    obtain ⟨letter, later⟩ := Bool.and_eq_true_iff.mp valid
    exact List.forall_mem_cons.mpr ⟨by simp [isSchemeChar, letter], List.all_eq_true.mp later⟩

theorem schemeColonless {scheme : List Char} (valid : isScheme scheme) : ':' ∉ scheme :=
  fun mem => absurd (schemeChars valid ':' mem) (by decide)

theorem absoluteAppended {text : String} (absolute : Absolute text) (more : String) : Absolute (text ++ more) := by
  obtain ⟨scheme, rest, same, valid⟩ := absolute
  exact ⟨scheme, rest ++ more.toList, by rw [String.toList_append, same, List.append_assoc, List.cons_append], valid⟩

namespace Resolver

theorem nameSplit {text head rest : String} (split : splitName? text = some (head, rest)) :
    text.toList = head.toList ++ ':' :: rest.toList := by
  obtain ⟨⟨before, after⟩, cut, same⟩ := Option.map_eq_some_iff.mp split
  cases same
  rw [String.toList_ofList, String.toList_ofList]
  exact (Text.splitFirstWhole cut).1

theorem absoluteSplit {text : String} :
    Absolute text ↔ ∃ head rest, splitName? text = some (head, rest) ∧ isScheme head.toList := by
  constructor
  · rintro ⟨scheme, rest, same, valid⟩
    refine ⟨String.ofList scheme, String.ofList rest, ?_, by rwa [String.toList_ofList]⟩
    rw [splitName?, same, Text.splitFirstFound (schemeColonless valid)]
    rfl
  · rintro ⟨head, rest, split, valid⟩
    exact ⟨head.toList, rest.toList, nameSplit split, valid⟩

instance (text : String) : Decidable (Absolute text) :=
  decidable_of_iff ((splitName? text).any fun (head, _) => isScheme head.toList) <| by
    rw [absoluteSplit, Option.any_eq_true]
    exact ⟨fun ⟨(head, rest), split, valid⟩ => ⟨head, rest, split, valid⟩,
      fun ⟨head, rest, split, valid⟩ => ⟨(head, rest), split, valid⟩⟩

structure Grounded (r : Resolver) : Prop where
  base : ∃ base, r.base = some base ∧ Absolute base
  named : ∀ name iri, r.prefixes.lookup name = some iri → Absolute iri

def Stray (r : Resolver) (text : String) : Prop :=
  ∃ head rest, splitName? text = some (head, rest) ∧ r.prefixes.lookup head = none ∧ isScheme head.toList = false

variable {r : Resolver} (grounded : r.Grounded)
include grounded

theorem qualifiedAbsolute (text : String) : Absolute (r.qualify text) := by
  obtain ⟨base, set, absolute⟩ := grounded.base
  rw [qualify, set]
  exact absoluteAppended absolute text

theorem expandedAbsolute {text : String} (known : ¬ r.Stray text) : Absolute (r.expandHead text) := by
  unfold expandHead
  split
  · rename_i head rest split
    split
    · rename_i iri found
      exact absoluteAppended (grounded.named head iri found) rest
    · rename_i unknown
      refine absoluteSplit.mpr ⟨head, rest, split, ?_⟩
      rw [← Bool.not_eq_false]
      exact fun invalid => known ⟨head, rest, split, unknown, invalid⟩
  · exact qualifiedAbsolute grounded text

omit grounded in
theorem strayKept {text : String} (stray : r.Stray text) : r.expandHead text = text ∧ ¬ Absolute text := by
  obtain ⟨head, rest, split, unknown, invalid⟩ := stray
  constructor
  · simp only [expandHead, split, unknown]
  · intro absolute
    obtain ⟨scheme, after, again, valid⟩ := absoluteSplit.mp absolute
    cases split.symm.trans again
    exact absurd (valid.symm.trans invalid) (by decide)

theorem expandedWhole (text : String) : Absolute (r.expandHead text) ↔ ¬ r.Stray text := by
  refine ⟨fun absolute stray => ?_, expandedAbsolute grounded⟩
  obtain ⟨kept, relative⟩ := strayKept stray
  exact relative (kept ▸ absolute)

omit grounded in
theorem namedKnown {text : String} (named : r.isNameOrAbsolute text) : ¬ r.Stray text := by
  rintro ⟨head, rest, split, unknown, invalid⟩
  unfold isNameOrAbsolute at named
  split at named
  · contradiction
  · simp [split, unknown, invalid] at named

theorem referenceAbsolute {value iri : String} (resolved : r.resolveReference value = .ok iri) : Absolute iri := by
  unfold resolveReference at resolved
  split at resolved
  · contradiction
  · rename_i given
    split at resolved
    · rename_i named
      rw [expand, if_neg given] at resolved
      cases Except.ok.inj resolved
      exact expandedAbsolute grounded (namedKnown named)
    -- the encoded value may have colons anywhere, but the base goes in front of it
    · cases Except.ok.inj resolved
      exact qualifiedAbsolute grounded _

end Resolver

end TabularRdf.Iri

namespace TabularRdf.Generation
open Iri Mapping Rdf Loading

theorem startVaries {template : Template} {name : String} {rest : List Segment}
    (starts : template.segments = .column name :: rest) : template.constant? = none :=
  columnVaries (List.mem_filterMap.mpr ⟨_, starts ▸ List.mem_cons_self, rfl⟩)

theorem startCompiled {template : Template} {name : String} {rest : List Segment}
    (starts : template.segments = .column name :: rest) (resolver : Resolver) :
    ∃ t, CompiledTerm.iri template resolver = .ok t := by
  rw [CompiledTerm.iri, startVaries starts, starts]
  cases rest <;> exact ⟨_, rfl⟩

theorem startRead {template : Template} {name : String} {segment : Segment} {rest : List Segment}
    (starts : template.segments = .column name :: segment :: rest) (resolver : Resolver) (row : Row) :
    iriReading resolver template row = (do
      let text ← filledAt row resolver.encoding.encode template.segments
      let iri ← resolver.expand text
      return .iri iri) := by
  rw [iriReading, startVaries starts, starts]

theorem startsAbsolute (resolver : Resolver) (template : Template) (name : String) (rest : List Segment)
    (grounded : resolver.Grounded) (starts : template.segments = .column name :: rest) :
    ∃ t, CompiledTerm.iri template resolver = .ok t ∧ ∀ (row : Row) (term : Term), t.resolve resolver row = .ok term →
      ∃ iri, term = .iri iri ∧ (rest = [] → Absolute iri) ∧
        (rest ≠ [] → ∃ text, filledAt row resolver.encoding.encode template.segments = .ok text ∧
          (Absolute iri ↔ ¬ resolver.Stray text) ∧ (resolver.Stray text → iri = text)) := by
  obtain ⟨t, compiled⟩ := startCompiled starts resolver
  refine ⟨t, compiled, fun row term given => ?_⟩
  rw [CompiledTerm.iriRead compiled] at given
  cases rest with
  | nil =>
    rw [iriReading, startVaries starts, starts] at given
    obtain ⟨value, _, given⟩ := boundOk.mp given
    obtain ⟨iri, resolved, same⟩ := boundOk.mp given
    exact ⟨iri, (pureOk.mp same).symm, fun _ => Resolver.referenceAbsolute grounded resolved, (absurd rfl ·)⟩
  | cons segment rest =>
    rw [startRead starts] at given
    obtain ⟨text, filled, given⟩ := boundOk.mp given
    obtain ⟨iri, expanded, same⟩ := boundOk.mp given
    unfold Resolver.expand at expanded
    split at expanded
    · contradiction
    · cases Except.ok.inj expanded
      refine ⟨_, (pureOk.mp same).symm, nofun, fun _ => ⟨text, filled, ?_, fun stray => ?_⟩⟩
      · exact Resolver.expandedWhole grounded text
      · exact (Resolver.strayKept stray).1

def clockResolver : Resolver := ⟨[("ex", "http://example.org/")], some "http://base.org/", .percent⟩

theorem clockGrounded : clockResolver.Grounded where
  base := ⟨_, rfl, by decide +kernel⟩
  named name iri found := by
    cases List.mem_singleton.mp (Named.foundListed found)
    decide +kernel

def clockTemplate : Template := ⟨"$(time)", [.column "time"]⟩

def slotTemplate : Template := ⟨"$(time)/$(room)", [.column "time", .text "/", .column "room"]⟩

theorem clockAbsolute :
    (∃ t iri, CompiledTerm.iri clockTemplate clockResolver = .ok t ∧
      t.resolve clockResolver (Row.ofRecord [("time", some "10:30")]) = .ok (.iri iri) ∧
      iri = "http://base.org/10:30" ∧ Absolute iri) ∧
    ∃ t iri, CompiledTerm.iri slotTemplate clockResolver = .ok t ∧
      t.resolve clockResolver (Row.ofRecord [("time", some "noon"), ("room", some "a b")]) = .ok (.iri iri) ∧
      iri = "http://base.org/noon/a%20b" ∧ Absolute iri := by
  constructor
  · obtain ⟨t, compiled, rows⟩ := startsAbsolute clockResolver clockTemplate _ _ clockGrounded rfl
    have given : t.resolve clockResolver (Row.ofRecord [("time", some "10:30")]) =
        .ok (.iri "http://base.org/10:30") := by
      rw [CompiledTerm.iriRead compiled]
      decide +kernel
    obtain ⟨iri, same, alone, _⟩ := rows _ _ given
    exact ⟨t, iri, compiled, same ▸ given, (Term.iri.inj same).symm, alone rfl⟩
  · obtain ⟨t, compiled, rows⟩ := startsAbsolute clockResolver slotTemplate _ _ clockGrounded rfl
    have given : t.resolve clockResolver (Row.ofRecord [("time", some "noon"), ("room", some "a b")]) =
        .ok (.iri "http://base.org/noon/a%20b") := by
      rw [CompiledTerm.iriRead compiled]
      decide +kernel
    obtain ⟨iri, same, _, longer⟩ := rows _ _ given
    obtain ⟨text, filled, whole, _⟩ := longer (List.cons_ne_nil _ _)
    have known : ¬ clockResolver.Stray text := by
      have written : filledAt (Row.ofRecord [("time", some "noon"), ("room", some "a b")])
          clockResolver.encoding.encode slotTemplate.segments = .ok "noon/a%20b" := by decide +kernel
      cases Except.ok.inj (written.symm.trans filled)
      have colonless : Resolver.splitName? "noon/a%20b" = none := by decide +kernel
      rintro ⟨head, rest, split, _⟩
      cases colonless.symm.trans split
    exact ⟨t, iri, compiled, same ▸ given, (Term.iri.inj same).symm, whole.mpr known⟩

/-- The same time with a room behind it stays as it is, since `10` could be a prefix that is not declared. -/
theorem timesStray : clockResolver.Grounded ∧ clockResolver.encoding = .percent ∧
    ∃ t, CompiledTerm.iri slotTemplate clockResolver = .ok t ∧
      t.resolve clockResolver (Row.ofRecord [("time", some "10:30"), ("room", some "1")]) = .ok (.iri "10:30/1") ∧
      ¬ Absolute "10:30/1" := by
  obtain ⟨t, compiled⟩ : ∃ t, CompiledTerm.iri slotTemplate clockResolver = .ok t := startCompiled rfl clockResolver
  refine ⟨clockGrounded, rfl, t, compiled, ?_, by decide +kernel⟩
  rw [CompiledTerm.iriRead compiled]
  decide +kernel

end TabularRdf.Generation
