/-!
Cutting a text at a character: at its first or last occurrence, or at every one.
-/
namespace TabularRdf.Text

def splitFirst? (sep : Char) : List Char → Option (List Char × List Char)
  | [] => none
  | c :: rest =>
    if c = sep then some ([], rest)
    else (splitFirst? sep rest).map fun (before, after) => (c :: before, after)

def splitLast? (sep : Char) : List Char → Option (List Char × List Char)
  | [] => none
  | c :: rest =>
    match splitLast? sep rest with
    | some (before, after) => some (c :: before, after)
    | none => if c = sep then some ([], rest) else none

def dropHead? : List Char → List Char → Option (List Char)
  | [], cs => some cs
  | _ :: _, [] => none
  | h :: hs, c :: cs => if h = c then dropHead? hs cs else none

def dropTail? (tail cs : List Char) : Option (List Char) :=
  (dropHead? tail.reverse cs.reverse).map List.reverse

theorem splitFirstWhole {sep : Char} {cs before after : List Char}
    (h : splitFirst? sep cs = some (before, after)) :
    cs = before ++ sep :: after ∧ sep ∉ before := by
  induction cs generalizing before with
  | nil => simp [splitFirst?] at h
  | cons c rest ih =>
    simp only [splitFirst?] at h
    split at h
    · next hc => simp_all
    · next hc =>
      obtain ⟨⟨b, a⟩, hb, he⟩ := Option.map_eq_some_iff.1 h
      simp only [Prod.mk.injEq] at he
      obtain ⟨rfl, rfl⟩ := he
      have := ih hb
      exact ⟨by simp [this.1], by simp [this.2, Ne.symm hc]⟩

theorem splitFirstFound {sep : Char} {before : List Char} (absent : sep ∉ before) (after : List Char) :
    splitFirst? sep (before ++ sep :: after) = some (before, after) := by
  induction before with
  | nil => exact if_pos rfl
  | cons c rest ih =>
    have other : c ≠ sep := fun same => absent (same ▸ List.mem_cons_self)
    have later := ih fun mem => absent (List.mem_cons_of_mem _ mem)
    rw [List.cons_append, splitFirst?, if_neg other, later]
    rfl

theorem splitLastNone {sep : Char} {cs : List Char} : splitLast? sep cs = none ↔ sep ∉ cs := by
  induction cs with
  | nil => simp [splitLast?]
  | cons c rest ih =>
    rw [splitLast?, List.mem_cons, not_or, ← ih]
    cases splitLast? sep rest with
    | some parts => simp
    | none => simp [eq_comm]

theorem splitLastExactly {sep : Char} {cs before after : List Char} :
    splitLast? sep cs = some (before, after) ↔ cs = before ++ sep :: after ∧ sep ∉ after := by
  induction cs generalizing before with
  | nil => simp [splitLast?]
  | cons c rest ih =>
    rw [splitLast?]
    cases found : splitLast? sep rest with
    | some parts =>
      have inside : sep ∈ rest := Decidable.of_not_not fun absent => by
        rw [splitLastNone.mpr absent] at found
        cases found
      cases before with
      | nil =>
        refine iff_of_false (by simp) ?_
        rintro ⟨same, lacks⟩
        exact lacks ((List.cons.inj same).2 ▸ inside)
      | cons d before =>
        obtain ⟨b, a⟩ := parts
        rw [List.cons_append, List.cons.injEq, and_assoc, ← ih, found]
        simp [eq_comm, and_assoc]
    | none =>
      have absent := splitLastNone.mp found
      cases before with
      | nil =>
        rw [List.nil_append, List.cons.injEq]
        by_cases here : c = sep
        · simp only [here, if_true, Option.some.injEq, Prod.mk.injEq, true_and]
          exact ⟨fun same => ⟨same, same ▸ absent⟩, And.left⟩
        · simp [here]
      | cons d before =>
        refine iff_of_false (by simp) ?_
        rintro ⟨same, _⟩
        exact absent ((List.cons.inj same).2 ▸ List.mem_append_right _ List.mem_cons_self)

theorem dropHeadExactly {head cs rest : List Char} : dropHead? head cs = some rest ↔ cs = head ++ rest := by
  induction head generalizing cs with
  | nil => simp [dropHead?]
  | cons h hs ih =>
    cases cs with
    | nil => simp [dropHead?]
    | cons c cs =>
      by_cases same : h = c
      · simp [dropHead?, same, ih]
      · simp [dropHead?, same, Ne.symm same]

theorem dropTailExactly {tail cs rest : List Char} : dropTail? tail cs = some rest ↔ cs = rest ++ tail := by
  rw [dropTail?, Option.map_eq_some_iff]
  constructor
  · rintro ⟨reversed, dropped, rfl⟩
    rw [← List.reverse_inj, dropHeadExactly.mp dropped]
    simp
  · rintro rfl
    exact ⟨rest.reverse, dropHeadExactly.mpr (List.reverse_append ..), List.reverse_reverse _⟩

theorem cutUnique {p : Char → Prop} {before other after rest : List Char} (inside : ∀ c ∈ before, p c)
    (within : ∀ c ∈ other, p c) (ends : ∀ c ∈ after.head?, ¬ p c) (stops : ∀ c ∈ rest.head?, ¬ p c)
    (same : before ++ after = other ++ rest) : before = other ∧ after = rest := by
  induction before generalizing other with
  | nil =>
    cases other with
    | nil => exact ⟨rfl, same⟩
    | cons d other =>
      have begins : after = d :: (other ++ rest) := same
      exact absurd (within d List.mem_cons_self) (ends d (begins ▸ rfl))
  | cons c before ih =>
    cases other with
    | nil =>
      have begins : rest = c :: (before ++ after) := same.symm
      exact absurd (inside c List.mem_cons_self) (stops c (begins ▸ rfl))
    | cons d other =>
      obtain ⟨rfl, later⟩ := List.cons.inj same
      obtain ⟨rfl, rfl⟩ := ih (fun c mem => inside c (List.mem_cons_of_mem _ mem))
        (fun c mem => within c (List.mem_cons_of_mem _ mem)) later
      exact ⟨rfl, rfl⟩

theorem cutUniqueAt {sep : Char} {before other after rest : List Char} (one : sep ∉ before) (two : sep ∉ other)
    (same : before ++ sep :: after = other ++ sep :: rest) : before = other ∧ after = rest := by
  obtain ⟨rfl, later⟩ := cutUnique (p := (· ≠ sep)) (fun _ mem here => one (here ▸ mem))
    (fun _ mem here => two (here ▸ mem)) (by simp) (by simp) same
  exact ⟨rfl, (List.cons.inj later).2⟩

end TabularRdf.Text
