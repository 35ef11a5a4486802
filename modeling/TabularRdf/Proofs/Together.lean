import TabularRdf.Proofs.Loading

/-! Two loaders side by side. They fail together, perhaps with different errors, or give related results; what
is composed of such pairs is such a pair. -/
namespace TabularRdf.Loading

variable {α β γ δ ε : Type}

inductive Together (R : α → β → Prop) : Except ε α → Except ε β → Prop where
  | failed (e d : ε) : Together R (.error e) (.error d)
  | loaded {a : α} {b : β} (related : R a b) : Together R (.ok a) (.ok b)

section

variable {R : α → β → Prop} {S : γ → δ → Prop} {x : Except ε α} {y : Except ε β}

theorem boundLoaded {a : α} {f : α → Except ε γ} : (Except.ok a >>= f) = f a := rfl

theorem togetherSame {R : α → α → Prop} (self : ∀ a, R a a) (x : Except ε α) : Together R x x := by
  cases x with
  | error e => exact .failed e e
  | ok a => exact .loaded (self a)

theorem togetherView {f : α → γ} (x : Except ε α) : Together (fun a b => f a = f b) x x :=
  togetherSame (R := fun a b => f a = f b) (fun _ => rfl) x

theorem togetherEqual {x y : Except ε α} (same : x = y) : Together Eq x y := same ▸ togetherSame Eq.refl x

theorem togetherWeaker {T : α → β → Prop} (both : Together R x y) (weaker : ∀ a b, R a b → T a b) :
    Together T x y := by
  cases both with
  | failed e d => exact .failed e d
  | loaded related => exact .loaded (weaker _ _ related)

theorem togetherOk (both : Together R x y) {a : α} (done : x = .ok a) : ∃ b, y = .ok b ∧ R a b := by
  subst done
  cases both with
  | loaded related => exact ⟨_, rfl, related⟩

theorem togetherFails (both : Together R x y) : (∃ e, x = .error e) ↔ ∃ e, y = .error e := by
  cases both <;> simp

theorem togetherBound {f : α → Except ε γ} {g : β → Except ε δ} (both : Together R x y)
    (next : ∀ a b, R a b → Together S (f a) (g b)) : Together S (x >>= f) (y >>= g) := by
  cases both with
  | failed e d => exact .failed e d
  | loaded related => exact next _ _ related

theorem togetherImage {f : α → γ} {g : β → δ} (both : Together R x y) (last : ∀ a b, R a b → S (f a) (g b)) :
    Together S (x.map f) (y.map g) := by
  cases both with
  | failed e d => exact .failed e d
  | loaded related => exact .loaded (last _ _ related)

theorem togetherFinished {f : α → γ} {g : β → δ} (both : Together R x y) (last : ∀ a b, R a b → S (f a) (g b)) :
    Together S (x >>= fun a => pure (f a)) (y >>= fun b => pure (g b)) :=
  togetherBound both fun a b related => .loaded (last a b related)

theorem togetherMapped {f : α → Except ε γ} {g : β → Except ε δ} {xs : List α} {ys : List β}
    (pairs : List.Forall₂ R xs ys) (each : ∀ a b, R a b → Together S (f a) (g b)) :
    Together (List.Forall₂ S) (xs.mapM f) (ys.mapM g) := by
  induction pairs with
  | nil => exact .loaded .nil
  | cons head _ ih =>
    rw [List.mapM_cons, List.mapM_cons]
    refine togetherBound (each _ _ head) fun c d first => ?_
    exact togetherFinished ih fun _ _ rest => .cons first rest

theorem mappedSame {f : α → Except ε γ} {g : β → Except ε γ} {xs : List α} {ys : List β}
    (pairs : List.Forall₂ R xs ys) (each : ∀ a b, R a b → f a = g b) : xs.mapM f = ys.mapM g := by
  induction pairs with
  | nil => rfl
  | cons head _ ih => rw [List.mapM_cons, List.mapM_cons, each _ _ head, ih]

theorem togetherFolded {f : γ → α → Except ε γ} {g : δ → β → Except ε δ} {xs : List α} {ys : List β}
    (pairs : List.Forall₂ R xs ys) (step : ∀ c d a b, S c d → R a b → Together S (f c a) (g d b)) {c : γ} {d : δ}
    (start : S c d) : Together S (xs.foldlM f c) (ys.foldlM g d) := by
  induction pairs generalizing c d with
  | nil => exact .loaded start
  | cons head _ ih =>
    rw [List.foldlM_cons, List.foldlM_cons]
    exact togetherBound (step c d _ _ start head) fun _ _ next => ih next

end

theorem sameLoaded {S : γ → δ → Prop} {x y : Except ε α} {f : α → Except ε γ} {g : α → Except ε δ} (same : x = y)
    (next : ∀ a, Together S (f a) (g a)) : Together S (x >>= f) (y >>= g) :=
  togetherBound (togetherEqual same) fun a _ here => here ▸ next a

theorem togetherImages {f : α → γ} {x y : Except ε α} (same : x.map f = y.map f) :
    Together (fun a b => f a = f b) x y := by
  cases x with
  | error e =>
    cases y with
    | error d => exact .failed e d
    | ok b => cases same
  | ok a =>
    cases y with
    | error d => cases same
    | ok b => exact .loaded (Except.ok.inj same)

theorem imagesEqual {f : α → β} {xs ys : List α} :
    List.Forall₂ (fun a b => f a = f b) xs ys ↔ xs.map f = ys.map f := by
  rw [← List.forall₂_eq_eq_eq, List.forall₂_map_left_iff, List.forall₂_map_right_iff]

end TabularRdf.Loading
