import Mathlib.Data.List.Forall2

/-! Lists that are loaded item by item. A loaded list holds one value for each item, in order; what a
loader keeps of each item holds of the whole list. -/
namespace TabularRdf.Loading

variable {α β ε : Type}

theorem boundOk {x : Except ε α} {f : α → Except ε β} {b : β} :
    (x >>= f) = .ok b ↔ ∃ a, x = .ok a ∧ f a = .ok b := by
  cases x <;> simp [bind, Except.bind]

theorem boundFailed {x : Except ε α} {f : α → Except ε β} {e : ε} :
    (x >>= f) = .error e ↔ x = .error e ∨ ∃ a, x = .ok a ∧ f a = .error e := by
  cases x <;> simp [bind, Except.bind]

theorem pureOk {a b : α} : (pure a : Except ε α) = .ok b ↔ a = b := by
  simp [pure, Except.pure]

theorem imageOk {x : Except ε α} {f : α → β} {b : β} : x.map f = .ok b ↔ ∃ a, x = .ok a ∧ f a = b := by
  cases x <;> simp [Except.map]

theorem optionOk {x : Except ε α} {a : α} : x.toOption = some a ↔ x = .ok a := by
  cases x <;> simp [Except.toOption]

theorem passedOk {c : Prop} [Decidable c] {e : ε} {rest : Unit → Except ε β} {b : β} :
    (if c then throw e >>= rest else rest ()) = .ok b ↔ ¬ c ∧ rest () = .ok b := by
  split
  · rename_i holds
    simp [holds, throw, throwThe, MonadExceptOf.throw, bind, Except.bind]
  · rename_i fails
    simp [fails]

theorem mappedOk {f : α → Except ε β} {xs : List α} {ys : List β} :
    xs.mapM f = .ok ys ↔ List.Forall₂ (fun x y => f x = .ok y) xs ys := by
  induction xs generalizing ys with
  | nil => cases ys <;> simp [pure, Except.pure]
  | cons x xs ih =>
    rw [List.mapM_cons, boundOk]
    constructor
    · rintro ⟨y, head, h⟩
      obtain ⟨rest, tail, last⟩ := boundOk.mp h
      cases Except.ok.inj last
      exact .cons head (ih.mp tail)
    · intro h
      cases h with
      | cons head tail => exact ⟨_, head, boundOk.mpr ⟨_, ih.mpr tail, rfl⟩⟩

theorem pairedOrigin {R : α → β → Prop} {xs : List α} {ys : List β} (pairs : List.Forall₂ R xs ys) {y : β}
    (member : y ∈ ys) : ∃ x ∈ xs, R x y := by
  induction pairs with
  | nil => contradiction
  | cons head _ ih =>
    rcases List.mem_cons.mp member with rfl | inside
    · exact ⟨_, List.mem_cons_self, head⟩
    · obtain ⟨x, mem, related⟩ := ih inside
      exact ⟨x, List.mem_cons_of_mem _ mem, related⟩

theorem pairedImage {R : α → β → Prop} {xs : List α} {ys : List β} (pairs : List.Forall₂ R xs ys) {x : α}
    (member : x ∈ xs) : ∃ y ∈ ys, R x y := pairedOrigin pairs.flip member

theorem pairedAt {R : α → β → Prop} {xs : List α} {ys : List β} (pairs : List.Forall₂ R xs ys) {i : Nat} {x : α}
    (here : xs[i]? = some x) : ∃ y, ys[i]? = some y ∧ R x y := by
  induction pairs generalizing i with
  | nil => cases here
  | cons head _ ih =>
    cases i with
    | zero => cases here; exact ⟨_, rfl, head⟩
    | succ i => exact ih here

theorem pairedChosen {R : α → β → Prop} {xs : List α} (each : ∀ x ∈ xs, ∃ y, R x y) :
    ∃ ys, List.Forall₂ R xs ys := by
  induction xs with
  | nil => exact ⟨[], .nil⟩
  | cons x rest ih =>
    obtain ⟨⟨y, head⟩, tail⟩ := List.forall_mem_cons.mp each
    obtain ⟨ys, pairs⟩ := ih tail
    exact ⟨y :: ys, .cons head pairs⟩

theorem foundInOrder {find : α → Option β} {keys : List α}
    (found : ∀ key ∈ keys, ∃ value, find key = some value) :
    List.Forall₂ (fun key value => find key = some value) keys (keys.filterMap find) := by
  induction keys with
  | nil => exact .nil
  | cons key rest ih =>
    obtain ⟨⟨value, head⟩, tail⟩ := List.forall_mem_cons.mp found
    rw [List.filterMap_cons, head]
    exact .cons head (ih tail)

theorem foundPaired {find : α → Option β} {keys : List α} {values : List β}
    (pairs : List.Forall₂ (fun key value => find key = some value) keys values) : keys.filterMap find = values := by
  induction pairs with
  | nil => rfl
  | cons head _ ih => rw [List.filterMap_cons, head, ih]

theorem mappedOrigin {f : α → Except ε β} {xs : List α} {ys : List β} (h : xs.mapM f = .ok ys)
    {y : β} (member : y ∈ ys) : ∃ x ∈ xs, f x = .ok y := pairedOrigin (mappedOk.mp h) member

theorem mappedImage {f : α → Except ε β} {xs : List α} {ys : List β} (h : xs.mapM f = .ok ys)
    {x : α} (member : x ∈ xs) : ∃ y ∈ ys, f x = .ok y := pairedImage (mappedOk.mp h) member

theorem givenOrigin {f : α → Except ε β} {a : Option α} {b : Option β} (h : a.mapM f = .ok b) {y : β}
    (member : y ∈ b) : ∃ x ∈ a, f x = .ok y := by
  cases a with
  | none =>
    cases Except.ok.inj h
    contradiction
  | some x =>
    obtain ⟨z, head, last⟩ := boundOk.mp h
    cases Except.ok.inj last
    cases member
    exact ⟨x, rfl, head⟩

theorem mappedFailure {f : α → Except ε β} {xs : List α} {e : ε} (h : xs.mapM f = .error e) :
    ∃ x ∈ xs, f x = .error e := by
  induction xs with
  | nil => cases h
  | cons x xs ih =>
    rw [List.mapM_cons] at h
    cases head : f x with
    | error cause =>
      simp only [head, bind, Except.bind, Except.error.injEq] at h
      exact ⟨x, List.mem_cons_self, by rw [head, h]⟩
    | ok y =>
      cases tail : xs.mapM f with
      | error cause =>
        simp only [head, tail, bind, Except.bind, Except.error.injEq] at h
        obtain ⟨other, mem, failed⟩ := ih (h ▸ tail)
        exact ⟨other, List.mem_cons_of_mem _ mem, failed⟩
      | ok ys =>
        simp only [head, tail, bind, Except.bind] at h
        cases h

theorem mappedAlike {f g : α → Except ε β} {xs : List α} (same : ∀ x ∈ xs, f x = g x) :
    xs.mapM f = xs.mapM g := by
  induction xs with
  | nil => rfl
  | cons x xs ih =>
    rw [List.mapM_cons, List.mapM_cons, same x List.mem_cons_self, ih (List.forall_mem_cons.mp same).2]

theorem checkedAll {f : α → Except ε Unit} {xs : List α} :
    xs.forM f = .ok () ↔ ∀ x ∈ xs, f x = .ok () := by
  induction xs with
  | nil => simp [pure, Except.pure]
  | cons x xs ih =>
    have first : (x :: xs).forM f = f x >>= fun _ => xs.forM f := rfl
    rw [first, boundOk, List.forall_mem_cons, ← ih]
    constructor
    · rintro ⟨⟨⟩, head, tail⟩; exact ⟨head, tail⟩
    · rintro ⟨head, tail⟩; exact ⟨(), head, tail⟩

theorem foldedKeeps {P : β → Prop} {f : β → α → Except ε β} {xs : List α} {first last : β}
    (h : xs.foldlM f first = .ok last) (start : P first)
    (step : ∀ b x c, x ∈ xs → P b → f b x = .ok c → P c) : P last := by
  induction xs generalizing first with
  | nil => cases Except.ok.inj h; exact start
  | cons x xs ih =>
    rw [List.foldlM_cons] at h
    obtain ⟨next, head, tail⟩ := boundOk.mp h
    exact ih tail (step _ _ _ List.mem_cons_self start head)
      fun b y c mem => step b y c (List.mem_cons_of_mem _ mem)

theorem foldedEach {f : β → α → Except ε β} {xs : List α} {first last : β}
    (h : xs.foldlM f first = .ok last) {x : α} (member : x ∈ xs) : ∃ b c, f b x = .ok c := by
  induction xs generalizing first with
  | nil => simp at member
  | cons y xs ih =>
    rw [List.foldlM_cons] at h
    obtain ⟨next, head, tail⟩ := boundOk.mp h
    rcases List.mem_cons.mp member with rfl | inside
    · exact ⟨first, next, head⟩
    · exact ih tail inside

theorem foldedFailure {f : β → α → Except ε β} {xs : List α} {first : β} {e : ε}
    (h : xs.foldlM f first = .error e) : ∃ x ∈ xs, ∃ b, f b x = .error e := by
  induction xs generalizing first with
  | nil => cases h
  | cons x xs ih =>
    rw [List.foldlM_cons] at h
    cases head : f first x with
    | error cause =>
      simp only [head, bind, Except.bind, Except.error.injEq] at h
      exact ⟨x, List.mem_cons_self, first, by rw [head, h]⟩
    | ok next =>
      simp only [head, bind, Except.bind] at h
      obtain ⟨y, mem, b, failed⟩ := ih h
      exact ⟨y, List.mem_cons_of_mem _ mem, b, failed⟩

def errorOf : Except ε α → Option ε
  | .ok _ => none
  | .error e => some e

theorem failureSome {x : Except ε α} {e : ε} : errorOf x = some e ↔ x = .error e := by
  cases x <;> simp [errorOf]

theorem failureNone {x : Except ε α} : errorOf x = none ↔ ∃ a, x = .ok a := by
  cases x <;> simp [errorOf]

theorem failureFinished {x : Except ε α} {f : α → β} :
    errorOf (x >>= fun a => pure (f a)) = errorOf x := by
  cases x <;> rfl

theorem failureBound {x : Except ε α} {f : α → Except ε β} {first rest : List ε}
    (here : errorOf x = first.head?) (later : ∀ a, x = .ok a → errorOf (f a) = rest.head?) :
    errorOf (x >>= f) = (first ++ rest).head? := by
  rw [List.head?_append, ← here]
  cases x with
  | error e => rfl
  | ok a => exact later a rfl

theorem failureMapped {f : α → Except ε β} {faults : α → List ε} {xs : List α}
    (each : ∀ x ∈ xs, errorOf (f x) = (faults x).head?) :
    errorOf (xs.mapM f) = (xs.flatMap faults).head? := by
  induction xs with
  | nil => rfl
  | cons x xs ih =>
    rw [List.mapM_cons, List.flatMap_cons]
    refine failureBound (each x List.mem_cons_self) fun y _ => ?_
    exact failureFinished.trans (ih (List.forall_mem_cons.mp each).2)

theorem failureFiltered {f : α → Except ε β} {p : α → Bool} {fault : α → ε} {xs : List α}
    (each : ∀ x, errorOf (f x) = if p x then some (fault x) else none) :
    errorOf (xs.mapM f) = ((xs.filter p).map fault).head? := by
  have listed : (xs.filter p).map fault = xs.flatMap fun x => if p x then [fault x] else [] := by
    induction xs with
    | nil => rfl
    | cons x xs ih => by_cases holds : p x <;> simp [holds, ih]
  rw [listed]
  refine failureMapped fun x _ => (each x).trans ?_
  split <;> rfl

end TabularRdf.Loading
