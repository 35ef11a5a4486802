import Mathlib.Data.List.Chain
import TabularRdf.Mapping.Template
import TabularRdf.Proofs.NamedUpdates

/-! External values put into a template, segment by segment, and the texts that come to stand beside each other
merged. -/
namespace TabularRdf.Mapping.Template

def Merged (segments : List Segment) : Prop := segments.IsChain fun s t => s.text? = none ∨ t.text? = none

def substitute (external : Named String) (s : Segment) : Segment :=
  match externalValue? external s with
  | some value => .text value
  | none => s

variable {external : Named String} {t : Template} {segments : List Segment}

theorem externalListed {s : Segment} {value : String} (found : externalValue? external s = some value) :
    ∃ e ∈ external, e.2 = value := by
  unfold externalValue? at found
  split at found
  · contradiction
  · split at found
    · exact ⟨_, Named.foundListed found, rfl⟩
    · contradiction

theorem substituteCases (external : Named String) (s : Segment) :
    (∃ e ∈ external, substitute external s = .text e.2 ∧ s.text? = none) ∨ substitute external s = s := by
  unfold substitute
  split
  · rename_i value found
    obtain ⟨e, listed, rfl⟩ := externalListed found
    cases s with
    | text t => cases found
    | column name => exact .inl ⟨e, listed, rfl, rfl⟩
  · exact .inr rfl

theorem substituteColumn {s : Segment} {name : String} (same : substitute external s = .column name) :
    s = .column name := by
  rcases substituteCases external s with ⟨e, _, value, _⟩ | kept
  · cases value.symm.trans same
  · exact kept.symm.trans same

theorem externalsAbsent (t : Template) : t.withExternals [] = t := rfl

theorem externalsMerged (given : external ≠ []) :
    (t.withExternals external).segments = mergeText (t.segments.map (substitute external)) := by
  rw [withExternals, if_neg (by simpa using given)]
  rfl

theorem mergeColumn (name : String) (rest : List Segment) :
    mergeText (.column name :: rest) = .column name :: mergeText rest := rfl

theorem mergeCases (text : String) (rest : List Segment) :
    (∃ u more, mergeText rest = .text u :: more ∧ mergeText (.text text :: rest) = .text (text ++ u) :: more) ∨
      (∀ s ∈ (mergeText rest).head?, s.text? = none) ∧
        mergeText (.text text :: rest) = .text text :: mergeText rest := by
  rw [mergeText]
  split
  · rename_i u more merged
    exact .inl ⟨u, more, merged, rfl⟩
  · rename_i other
    refine .inr ⟨fun s first => ?_, rfl⟩
    obtain ⟨more, same⟩ := List.head?_eq_some_iff.mp first
    cases s with
    | text u => exact absurd same (other u more)
    | column name => rfl

theorem mergedApart (segments : List Segment) : Merged (mergeText segments) := by
  induction segments with
  | nil => exact .nil
  | cons s rest ih =>
    cases s with
    | column name => exact List.isChain_cons.mpr ⟨fun _ _ => .inl rfl, ih⟩
    | text t =>
      rcases mergeCases t rest with ⟨u, more, merged, same⟩ | ⟨apart, same⟩
      · rw [merged] at ih
        rw [same]
        exact List.isChain_cons.mpr ⟨fun s first => .inr ((List.isChain_cons.mp ih).1 s first |>.resolve_left nofun),
          (List.isChain_cons.mp ih).2⟩
      · rw [same]
        exact List.isChain_cons.mpr ⟨fun s first => .inr (apart s first), ih⟩

theorem mergedColumns {name : String} (mem : .column name ∈ mergeText segments) : .column name ∈ segments := by
  induction segments with
  | nil => exact mem
  | cons s rest ih =>
    cases s with
    | column other =>
      rcases List.mem_cons.mp mem with here | later
      · exact here ▸ List.mem_cons_self
      · exact List.mem_cons_of_mem _ (ih later)
    | text t =>
      refine List.mem_cons_of_mem _ (ih ?_)
      rcases mergeCases t rest with ⟨u, more, merged, same⟩ | ⟨_, same⟩
      · rw [same] at mem
        rw [merged]
        exact List.mem_cons_of_mem _ ((List.mem_cons.mp mem).resolve_left nofun)
      · rw [same] at mem
        exact (List.mem_cons.mp mem).resolve_left nofun

theorem externalsColumns {name : String} (mem : .column name ∈ (t.withExternals external).segments) :
    .column name ∈ t.segments := by
  by_cases given : external = []
  · subst given
    exact mem
  · rw [externalsMerged given] at mem
    obtain ⟨s, listed, same⟩ := List.mem_map.mp (mergedColumns mem)
    exact substituteColumn same ▸ listed

theorem mergedAlready (apart : Merged segments) :
    mergeText segments = segments := by
  induction segments with
  | nil => rfl
  | cons s rest ih =>
    obtain ⟨first, later⟩ := List.isChain_cons.mp apart
    have kept := ih later
    cases s with
    | column name => rw [mergeColumn, kept]
    | text t =>
      rcases mergeCases t rest with ⟨u, more, merged, _⟩ | ⟨_, same⟩
      · rw [kept] at merged
        have beside := first (.text u) (by rw [merged]; rfl)
        cases beside <;> contradiction
      · rw [same, kept]

theorem externalsWritten (apart : Merged t.segments) (external : Named String) : t.withExternals external = t ∨
    (t.withExternals external).source = render (t.withExternals external).segments := by
  by_cases given : external = []
  · exact .inl (given ▸ externalsAbsent t)
  · by_cases changed : t.segments.any fun s => (externalValue? external s).isSome
    · right
      rw [withExternals, if_neg (by simpa using given)]
      exact if_pos changed
    · left
      have source : (t.withExternals external).source = t.source := by
        rw [withExternals, if_neg (by simpa using given)]
        exact if_neg changed
      have kept : t.segments.map (substitute external) = t.segments := by
        refine List.map_congr_left (g := id) (fun s mem => ?_) |>.trans (List.map_id _)
        have absent : externalValue? external s = none := by
          simpa using fun found => changed (List.any_eq_true.mpr ⟨s, mem, found⟩)
        rw [substitute, absent]
        rfl
      have segments := (externalsMerged given).trans ((congrArg mergeText kept).trans (mergedAlready apart))
      exact congrArg₂ Template.mk source segments

end TabularRdf.Mapping.Template
