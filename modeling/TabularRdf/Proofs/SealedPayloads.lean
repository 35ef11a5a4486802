import TabularRdf.Generation.Run
import TabularRdf.Proofs.Loading

/-! What is read of an expression that is carried without being evaluated: its kind, and never its payload. A
plan reads even less, the names of the maps and what they quote. -/
namespace TabularRdf.Mapping
open Loading

def Expression.sealed (e : Expression) : Expression := { e with payload := .null }

def ObjectSpec.sealed : ObjectSpec → ObjectSpec
  | .function e => .function e.sealed
  | object => object

def PredicateObject.sealed (po : PredicateObject) : PredicateObject :=
  { po with object := po.object.sealed, condition := po.condition.map Expression.sealed }

def SubjectSpec.sealed (s : SubjectSpec) : SubjectSpec :=
  { s with functions := s.functions.map Expression.sealed }

def TriplesMap.sealed (m : TriplesMap) : TriplesMap :=
  { m with
    subject := m.subject.sealed
    predicateObjects := m.predicateObjects.map PredicateObject.sealed
    condition := m.condition.map Expression.sealed }

def Specification.sealed (spec : Specification) : Specification :=
  { spec with maps := spec.maps.map TriplesMap.sealed }

theorem sealedKind : Expression.kind ∘ Expression.sealed = Expression.kind := rfl

theorem sealedQuoted (object : ObjectSpec) : object.sealed.quoted? = object.quoted? := by
  cases object <;> rfl

theorem sealedReference (object : ObjectSpec) : object.sealed.reference? = object.reference? := by
  cases object <;> rfl

theorem sealedRefs (m : TriplesMap) : m.sealed.quotedRefs = m.quotedRefs := by
  simp only [TriplesMap.quotedRefs, TriplesMap.sealed, SubjectSpec.sealed, List.filterMap_map]
  exact congrArg _ (congrArg (fun f => List.filterMap f _) (funext fun po => sealedQuoted po.object))

namespace Plan

def SameNode (m other : TriplesMap) : Prop := m.name = other.name ∧ m.quotedRefs = other.quotedRefs

section

variable {maps others : List TriplesMap} (same : List.Forall₂ SameNode maps others)
include same

theorem numberedAlike (first : Nat) :
    List.Forall₂ (fun a b => SameNode a.1 b.1 ∧ a.2 = b.2) (maps.zipIdx first) (others.zipIdx first) := by
  induction same generalizing first with
  | nil => exact .nil
  | cons head _ ih => exact .cons ⟨head, rfl⟩ (ih (first + 1))

theorem positionAlike : position? maps = position? others := by
  funext name
  have places (first : Nat) : ((maps.zipIdx first).filter fun entry => entry.1.name = name).map Prod.snd =
      ((others.zipIdx first).filter fun entry => entry.1.name = name).map Prod.snd := by
    induction same generalizing first with
    | nil => rfl
    | cons head _ ih =>
      simp only [List.zipIdx_cons, List.filter_cons, head.1]
      split
      · rw [List.map_cons, List.map_cons, ih]
      · exact ih (first + 1)
  rw [position?, position?, ← List.getLast?_map, ← List.getLast?_map]
  exact congrArg List.getLast? (places 0)

theorem nameAlike : nameAt maps = nameAt others := by
  funext i
  have names : maps.map TriplesMap.name = others.map TriplesMap.name := by
    clear i
    induction same with
    | nil => rfl
    | cons head _ ih => rw [List.map_cons, List.map_cons, ih, head.1]
  rw [nameAt, nameAt, ← List.getElem?_map, ← List.getElem?_map, names]

theorem graphAlike : graphOf maps = graphOf others := by
  have steps (first : Nat) (g : Graph) :
      (maps.zipIdx first).foldlM (fun g entry => entry.1.quotedRefs.foldlM (linkQuote maps entry.1 entry.2) g) g =
        (others.zipIdx first).foldlM
          (fun g entry => entry.1.quotedRefs.foldlM (linkQuote others entry.1 entry.2) g) g := by
    have pairs := numberedAlike same first
    have places := positionAlike same
    -- the position is looked up in all maps, and the induction is on those that are left
    generalize maps.zipIdx first = numbered at pairs
    generalize others.zipIdx first = renumbered at pairs
    induction pairs generalizing g with
    | nil => rfl
    | @cons a b _ _ head _ ih =>
      obtain ⟨⟨named, refs⟩, placed⟩ := head
      have link : linkQuote maps a.1 a.2 = linkQuote others b.1 b.2 := by
        funext g q
        simp only [linkQuote, places, named, placed]
      simp only [List.foldlM_cons, link, refs]
      exact bind_congr fun next => ih next
  rw [graphOf, graphOf, same.length_eq]
  exact steps 0 _

theorem buildAlike : build maps = build others := by
  simp only [build, graphAlike same, nameAlike same, same.length_eq]

end

end Plan

end TabularRdf.Mapping

namespace TabularRdf.Generation
open Iri Mapping Loading

theorem sealedObject (object : ObjectSpec) : CompiledObject.compile object.sealed = CompiledObject.compile object := by
  cases object <;> rfl

theorem sealedEntry (resolver : Resolver) (po : PredicateObject) :
    CompiledEntry.compile resolver po.sealed = CompiledEntry.compile resolver po := by
  simp only [CompiledEntry.compile, PredicateObject.sealed, sealedObject]

theorem sealedKinds (m : TriplesMap) : CompiledMap.expressionKinds m.sealed = CompiledMap.expressionKinds m := by
  simp only [CompiledMap.expressionKinds, TriplesMap.sealed, SubjectSpec.sealed, Option.toList_map,
    ← List.map_append, List.map_map, sealedKind, List.flatMap_map]
  congr 2
  funext po
  simp only [PredicateObject.sealed, Option.toList_map, List.map_map, sealedKind]
  cases po.object <;> rfl

theorem sealedCompiled (m : TriplesMap) (resolver : Resolver) :
    CompiledMap.compile m.sealed resolver = CompiledMap.compile m resolver := by
  have entries : m.sealed.predicateObjects.mapM (CompiledEntry.compile resolver) =
      m.predicateObjects.mapM (CompiledEntry.compile resolver) := by
    rw [TriplesMap.sealed, List.mapM_map]
    exact mappedAlike fun po _ => sealedEntry resolver po
  rw [CompiledMap.compile, CompiledMap.compile, entries, sealedKinds]
  rfl

theorem sealedRun (spec : Specification) (options : GenerationOptions) (provider : TableProvider)
    (cancelled : Bool) : run spec.sealed options provider cancelled = run spec options provider cancelled := by
  have prepared (resolver : Resolver) :
      prepareAll provider resolver spec.sealed.maps = prepareAll provider resolver spec.maps := by
    simp only [prepareAll, Specification.sealed, List.mapM_map, Function.comp_def, prepare, sealedCompiled]
    rfl
  have made : Setup.make spec.sealed options provider cancelled = Setup.make spec options provider cancelled := by
    rw [Setup.make, prepared]
    rfl
  rw [run, made]
  rfl

end TabularRdf.Generation
