import TabularRdf.Proofs.InlineCalls

/-! The grammar of calls on one line, by counting parentheses. A text is a call exactly when it is a name and balanced
text in parentheses; its arguments are what stands between the commas outside of all other parentheses. Parentheses
are counted in 32 bits with a sign. The count is exact where no stretch of the text opens 2^31 of them more than it
closes, and so in every text with fewer than 2^31 opening ones. Read at a level, a text starts with that many open. -/
namespace TabularRdf.Mapping.InlineCall

def depth (cs : List Char) : Int := cs.count '(' - cs.count ')'

/-- Nowhere does the text open more parentheses than 32 bits with a sign can count. -/
def Shallow (cs : List Char) : Prop := ∀ piece, piece <:+: cs → depth piece < 2 ^ 31

def Below (level : Int) (cs : List Char) : Prop := ∀ before, before <+: cs → level + depth before < 2 ^ 31

structure Counted (level : Int) (cs : List Char) : Prop where
  below : Below level cs
  above : ∀ before, before <+: cs → -2 ^ 31 ≤ level + depth before

structure Balanced (cs : List Char) : Prop where
  opened : ∀ before, before <+: cs → before.count ')' ≤ before.count '('
  closed : cs.count '(' = cs.count ')'

def Undivided (separator : Char) (level : Int) (cs : List Char) : Prop :=
  ∀ before after, cs = before ++ separator :: after → level + depth before ≠ 0

structure Divided (separator : Char) (cs : List Char) (pieces : List (List Char)) : Prop where
  joined : [separator].intercalate pieces = cs
  some : pieces ≠ []
  balanced : ∀ piece ∈ pieces, Balanced piece
  whole : ∀ piece ∈ pieces, Undivided separator 0 piece

inductive Means : List Char → Option String × String → Prop where
  | keyed {key value : List Char} (outside : depth key = 0) (first : Undivided '=' 0 key) :
      Means (key ++ '=' :: value) (.some (String.ofList (Text.trim key)), String.ofList (Text.trim value))
  | positional {piece : List Char} (whole : Undivided '=' 0 piece) : Means piece (none, String.ofList piece)

structure Written (cs name inner : List Char) : Prop where
  written : cs = name ++ '(' :: (inner ++ [')'])
  unopened : '(' ∉ name
  named : ¬ name.all Text.isBlank
  balanced : Balanced inner

def visible (pieces : List (List Char)) : List (List Char) :=
  (pieces.filter fun piece => !piece.all Text.isBlank).map Text.trim

inductive Spells : List Char → InlineCall → Prop where
  | call {cs name inner : List Char} {pieces : List (List Char)} {arguments : List (Option String × String)}
      (written : Written cs name inner) (divided : Divided ',' inner pieces)
      (meant : List.Forall₂ Means (visible pieces) arguments) :
      Spells cs ⟨String.ofList (Text.trim name), arguments⟩

structure Closes (level : Int) (cs : List Char) : Prop where
  opened : ∀ before, before <+: cs → 0 ≤ level + depth before
  closed : level + depth cs = 0

/- Read at a level, the text is divided at its separators outside parentheses; the first piece starts at the level,
and the others outside. -/
inductive Cut (separator : Char) : Int → List Char → List (List Char) → Prop where
  | last {level : Int} {cs : List Char} (closes : Closes level cs) (whole : Undivided separator level cs) :
      Cut separator level cs [cs]
  | next {level : Int} {first rest : List Char} {pieces : List (List Char)} (closes : Closes level first)
      (whole : Undivided separator level first) (later : Cut separator 0 rest pieces) :
      Cut separator level (first ++ separator :: rest) (first :: pieces)

section

variable {separator c : Char} {level : Int} {cs before after : List Char}

theorem depthOne (c : Char) : depth [c] = if c = '(' then 1 else if c = ')' then -1 else 0 := by
  unfold depth
  split_ifs <;> simp_all

theorem depthAppend (before after : List Char) : depth (before ++ after) = depth before + depth after := by
  simp only [depth, List.count_append]
  omega

theorem depthCons (c : Char) (cs : List Char) : depth (c :: cs) = depth [c] + depth cs := depthAppend [c] cs

theorem balancedCloses : Balanced cs ↔ Closes 0 cs := by
  constructor
  · rintro ⟨opened, closed⟩
    exact ⟨fun before inside => by have := opened before inside; unfold depth; omega, by unfold depth; omega⟩
  · rintro ⟨opened, closed⟩
    unfold depth at *
    exact ⟨fun before inside => by have := opened before inside; omega, by omega⟩

theorem closesNil : Closes level [] ↔ level = 0 := by
  constructor
  · rintro ⟨_, closed⟩
    simpa [depth] using closed
  · rintro rfl
    exact ⟨by simp [depth], by simp [depth]⟩

theorem closesCons : Closes level (c :: cs) ↔ 0 ≤ level ∧ Closes (level + depth [c]) cs := by
  constructor
  · rintro ⟨opened, closed⟩
    refine ⟨by simpa [depth] using opened [] List.nil_prefix, fun before inside => ?_, ?_⟩
    · have := opened (c :: before) (List.cons_prefix_cons.mpr ⟨rfl, inside⟩)
      rwa [depthCons, ← Int.add_assoc] at this
    · rwa [depthCons, ← Int.add_assoc] at closed
  · rintro ⟨start, opened, closed⟩
    refine ⟨fun before inside => ?_, ?_⟩
    · cases before with
      | nil => simpa [depth] using start
      | cons d before =>
        obtain ⟨rfl, within⟩ := List.cons_prefix_cons.mp inside
        rw [depthCons, ← Int.add_assoc]
        exact opened before within
    · rwa [depthCons, ← Int.add_assoc]

theorem undividedNil : Undivided separator level [] := by
  intro before after same
  simp at same

theorem undividedCons : Undivided separator level (c :: cs) ↔
    ¬ (c = separator ∧ level = 0) ∧ Undivided separator (level + depth [c]) cs := by
  constructor
  · intro whole
    refine ⟨?_, fun before after same => ?_⟩
    · rintro ⟨rfl, rfl⟩
      exact whole [] cs rfl rfl
    · have apart := whole (c :: before) after (by rw [same, List.cons_append])
      rwa [depthCons, ← Int.add_assoc] at apart
  · rintro ⟨here, later⟩ before after same
    cases before with
    | nil =>
      obtain ⟨rfl, -⟩ := List.cons.inj same
      exact fun outside => here ⟨rfl, by simpa [depth] using outside⟩
    | cons d before =>
      obtain ⟨rfl, inside⟩ := List.cons.inj same
      rw [depthCons, ← Int.add_assoc]
      exact later before after inside

theorem cutLevel {pieces : List (List Char)} (cut : Cut separator level cs pieces) : 0 ≤ level := by
  cases cut with
  | last closes _ => simpa [depth] using closes.opened [] List.nil_prefix
  | next closes _ _ => simpa [depth] using closes.opened [] List.nil_prefix

theorem cutNil {pieces : List (List Char)} : Cut separator level [] pieces ↔ level = 0 ∧ pieces = [[]] := by
  constructor
  · intro cut
    generalize same : ([] : List Char) = cs at cut
    cases cut with
    | last closes _ => exact ⟨closesNil.mp (same ▸ closes), same ▸ rfl⟩
    | next => simp at same
  · rintro ⟨rfl, rfl⟩
    exact .last (closesNil.mpr rfl) undividedNil

theorem cutCons {pieces : List (List Char)} : Cut separator level (c :: cs) pieces ↔
    if c = separator ∧ level = 0 then ∃ later, Cut separator 0 cs later ∧ pieces = [] :: later
    else 0 ≤ level ∧ ∃ later, Cut separator (level + depth [c]) cs later ∧ pieces = consFirst c later := by
  constructor
  · intro cut
    generalize same : c :: cs = text at cut
    cases cut with
    | last closes whole =>
      subst same
      obtain ⟨here, later⟩ := undividedCons.mp whole
      obtain ⟨start, rest⟩ := closesCons.mp closes
      rw [if_neg here]
      exact ⟨start, [cs], .last rest later, rfl⟩
    | @next _ first rest pieces closes whole later =>
      cases first with
      | nil =>
        obtain ⟨rfl, rfl⟩ := List.cons.inj same
        rw [if_pos ⟨rfl, closesNil.mp closes⟩]
        exact ⟨pieces, later, rfl⟩
      | cons d first =>
        obtain ⟨rfl, rfl⟩ := List.cons.inj same
        obtain ⟨here, inside⟩ := undividedCons.mp whole
        obtain ⟨start, behind⟩ := closesCons.mp closes
        rw [if_neg here]
        exact ⟨start, first :: pieces, .next behind inside later, rfl⟩
  · split
    · rename_i here
      obtain ⟨rfl, rfl⟩ := here
      rintro ⟨later, cut, rfl⟩
      exact .next (closesNil.mpr rfl) undividedNil cut
    · rename_i here
      rintro ⟨start, later, cut, rfl⟩
      cases cut with
      | last closes whole => exact .last (closesCons.mpr ⟨start, closes⟩) (undividedCons.mpr ⟨here, whole⟩)
      | next closes whole later =>
        exact .next (closesCons.mpr ⟨start, closes⟩) (undividedCons.mpr ⟨here, whole⟩) later

theorem dividedCut {pieces : List (List Char)} : Divided separator cs pieces ↔ Cut separator 0 cs pieces := by
  constructor
  · intro divided
    obtain ⟨joined, some, balanced, whole⟩ := divided
    induction pieces generalizing cs with
    | nil => contradiction
    | cons first rest ih =>
      obtain ⟨closes, others⟩ := List.forall_mem_cons.mp balanced
      obtain ⟨here, later⟩ := List.forall_mem_cons.mp whole
      cases rest with
      | nil =>
        rw [List.intercalate_singleton] at joined
        exact joined ▸ .last (balancedCloses.mp closes) here
      | cons second rest =>
        rw [List.intercalate_cons_cons, List.append_assoc, List.singleton_append] at joined
        exact joined ▸ .next (balancedCloses.mp closes) here (ih rfl (by simp) others later)
  · intro cut
    generalize start : (0 : Int) = level at cut
    induction cut with
    | last closes whole =>
      subst start
      exact ⟨List.intercalate_singleton, by simp, by simpa using balancedCloses.mpr closes, by simpa using whole⟩
    | next closes whole later ih =>
      subst start
      obtain ⟨joined, some, balanced, wholes⟩ := ih rfl
      refine ⟨?_, by simp, List.forall_mem_cons.mpr ⟨balancedCloses.mpr closes, balanced⟩,
        List.forall_mem_cons.mpr ⟨whole, wholes⟩⟩
      rw [List.intercalate_cons_of_ne_nil some, joined, List.append_assoc, List.singleton_append]

end

section

variable {c : Char} {cs piece : List Char} {level : Int} {count : Int32}

theorem shallowWithin (shallow : Shallow cs) (within : piece <:+: cs) : Shallow piece :=
  fun part inside => shallow part (inside.trans within)

theorem shallowFew (few : cs.count '(' < 2 ^ 31) : Shallow cs := by
  intro piece within
  have less : piece.count '(' ≤ cs.count '(' := within.sublist.count_le _
  unfold depth
  omega

theorem shallowBelow (shallow : Shallow cs) : Below 0 cs := by
  intro before inside
  rw [Int.zero_add]
  exact shallow before inside.isInfix

theorem belowStart (below : Below level cs) : level < 2 ^ 31 := by
  simpa [depth] using below [] List.nil_prefix

theorem belowNext (below : Below level (c :: cs)) : Below (level + depth [c]) cs := by
  intro before inside
  have later := below (c :: before) (List.cons_prefix_cons.mpr ⟨rfl, inside⟩)
  rwa [depthCons, ← Int.add_assoc] at later

theorem belowOther (opens : c ≠ '(') (closes : c ≠ ')') (below : Below level (c :: cs)) : Below level cs := by
  have later := belowNext below
  rwa [depthOne, if_neg opens, if_neg closes, Int.add_zero] at later

theorem belowOpened (below : Below count.toInt ('(' :: cs)) :
    (count + 1).toInt = count.toInt + 1 ∧ Below (count + 1).toInt cs := by
  have later := belowNext below
  have next : (count + 1).toInt = count.toInt + 1 := raised (belowStart later)
  exact ⟨next, by rwa [next]⟩

theorem belowClosed (inside : 0 ≤ count.toInt) (below : Below count.toInt (')' :: cs)) :
    (count - 1).toInt = count.toInt - 1 ∧ Below (count - 1).toInt cs := by
  have later := belowNext below
  have next : (count - 1).toInt = count.toInt - 1 := lowered (by omega)
  exact ⟨next, by rwa [next]⟩

theorem countedStart (counted : Counted level cs) : -2 ^ 31 ≤ level := by
  simpa [depth] using counted.above [] List.nil_prefix

theorem countedNext (counted : Counted level (c :: cs)) : Counted (level + depth [c]) cs := by
  refine ⟨belowNext counted.below, fun before inside => ?_⟩
  have later := counted.above (c :: before) (List.cons_prefix_cons.mpr ⟨rfl, inside⟩)
  rwa [depthCons, ← Int.add_assoc] at later

theorem countedWithin (balanced : Balanced cs) (shallow : Shallow cs) (within : piece <:+: cs) : Counted 0 piece := by
  refine ⟨shallowBelow (shallowWithin shallow within), fun before inside => ?_⟩
  obtain ⟨front, back, whole⟩ := inside.isInfix.trans within
  have first : front <+: cs := ⟨before ++ back, by rw [← whole, List.append_assoc]⟩
  have both : front ++ before <+: cs := ⟨back, whole⟩
  have few := shallow front first.isInfix
  have enough := balanced.opened _ both
  rw [List.count_append, List.count_append] at enough
  unfold depth at *
  omega

def countOn (c : Char) (count : Int32) : Int32 :=
  if c = '(' then count + 1 else if c = ')' then count - 1 else count

theorem countedOn (low : -2 ^ 31 ≤ count.toInt + depth [c]) (high : count.toInt + depth [c] < 2 ^ 31) :
    (countOn c count).toInt = count.toInt + depth [c] := by
  rw [depthOne] at *
  unfold countOn
  split_ifs at * with opening closing
  · exact raised high
  · rw [lowered low, Int.sub_eq_add_neg]
  · rw [Int.add_zero]

theorem countedKept (counted : Counted count.toInt (c :: cs)) :
    (countOn c count).toInt = count.toInt + depth [c] :=
  countedOn (countedStart (countedNext counted)) (belowStart (countedNext counted).below)

theorem countedOnward (counted : Counted count.toInt (c :: cs)) : Counted (countOn c count).toInt cs := by
  rw [countedKept counted]
  exact countedNext counted

end

section

variable {needle c : Char}

variable (opens : needle ≠ '(') (closes : needle ≠ ')')
include opens closes

theorem cutStep (count : Int32) (cs : List Char) : cutTop? needle count (c :: cs) =
    if c = needle ∧ count = 0 then some ([], cs)
    else (cutTop? needle (countOn c count) cs).map fun (before, after) => (c :: before, after) := by
  rw [cutTop?, countOn]
  by_cases opening : c = '('
  · rw [if_pos opening, if_pos opening, if_neg fun here => opens (here.1.symm.trans opening)]
  · by_cases closing : c = ')'
    · rw [if_neg opening, if_pos closing, if_neg opening, if_pos closing,
        if_neg fun here => closes (here.1.symm.trans closing)]
    · rw [if_neg opening, if_neg closing, if_neg opening, if_neg closing]

theorem cutWhole {count : Int32} {cs key value : List Char} (found : cutTop? needle count cs = some (key, value)) :
    cs = key ++ needle :: value := by
  induction cs generalizing count key with
  | nil => cases found
  | cons c cs ih =>
    rw [cutStep opens closes] at found
    split at found
    · rename_i here
      cases found
      rw [here.1, List.nil_append]
    · obtain ⟨⟨before, after⟩, later, same⟩ := Option.map_eq_some_iff.mp found
      cases same
      rw [ih later, List.cons_append]

theorem cutExactly {count : Int32} {cs key value : List Char} (counted : Counted count.toInt cs) :
    cutTop? needle count cs = some (key, value) ↔
      cs = key ++ needle :: value ∧ count.toInt + depth key = 0 ∧ Undivided needle count.toInt key := by
  induction cs generalizing count key with
  | nil => simp [cutTop?]
  | cons c cs ih =>
    have next : (countOn c count).toInt = count.toInt + depth [c] := countedKept counted
    have later : Counted (countOn c count).toInt cs := countedOnward counted
    rw [cutStep opens closes]
    split
    · rename_i here
      obtain ⟨rfl, rfl⟩ := here
      cases key with
      | nil => simp [undividedNil, depth]
      | cons d key =>
        refine iff_of_false (by simp) ?_
        rintro ⟨same, _, first⟩
        obtain ⟨rfl, -⟩ := List.cons.inj same
        exact (undividedCons.mp first).1 ⟨rfl, rfl⟩
    · rename_i other
      rw [outsideZero] at other
      cases key with
      | nil =>
        refine iff_of_false (by simp) ?_
        rintro ⟨same, outside, _⟩
        exact other ⟨(List.cons.inj same).1, by simpa [depth] using outside⟩
      | cons d key =>
        rw [Option.map_eq_some_iff, List.cons_append, List.cons.injEq, undividedCons, depthCons d key, ← Int.add_assoc]
        constructor
        · rintro ⟨⟨before, after⟩, found, same⟩
          obtain ⟨⟨rfl, rfl⟩, rfl⟩ : (c = d ∧ before = key) ∧ after = value := by simpa using same
          obtain ⟨rfl, outside, first⟩ := (ih later).mp found
          rw [next] at outside first
          exact ⟨⟨rfl, rfl⟩, outside, other, first⟩
        · rintro ⟨⟨rfl, rfl⟩, outside, _, first⟩
          rw [← next] at outside first
          exact ⟨(key, value), (ih later).mpr ⟨rfl, outside, first⟩, rfl⟩

theorem cutNowhere {count : Int32} {cs : List Char} (counted : Counted count.toInt cs) :
    cutTop? needle count cs = none ↔ Undivided needle count.toInt cs := by
  induction cs generalizing count with
  | nil => exact iff_of_true rfl undividedNil
  | cons c cs ih =>
    rw [cutStep opens closes, undividedCons, ← countedKept counted, ← ih (countedOnward counted), ← outsideZero]
    split
    · rename_i here
      simp [here]
    · rename_i other
      simp [other]

theorem splitExactly {count : Int32} {cs : List Char} {pieces : List (List Char)} (inside : 0 ≤ count.toInt)
    (below : Below count.toInt cs) : splitTop needle count cs = some pieces ↔ Cut needle count.toInt cs pieces := by
  induction cs generalizing count pieces with
  | nil =>
    rw [cutNil, splitTop, ← outsideZero]
    split
    · rename_i unclosed
      simp [unclosed]
    · rename_i outside
      simp [not_not.mp outside, eq_comm]
  | cons c cs ih =>
    have further {count : Int32} (inside : 0 ≤ count.toInt) (below : Below count.toInt cs) :
        (splitTop needle count cs).map (consFirst c) = some pieces ↔
          ∃ later, Cut needle count.toInt cs later ∧ pieces = consFirst c later := by
      rw [Option.map_eq_some_iff]
      simp only [ih inside below, eq_comm]
    rw [cutCons, splitTop]
    by_cases opening : c = '('
    · subst opening
      obtain ⟨next, later⟩ := belowOpened below
      have deeper : depth ['('] = 1 := rfl
      rw [if_pos rfl, further (by omega) later, if_neg fun here => opens here.1.symm, deeper, next,
        and_iff_right inside]
    · by_cases closing : c = ')'
      · subst closing
        obtain ⟨next, later⟩ := belowClosed inside below
        have shallower : depth [')'] = -1 := rfl
        have apart : ¬ (')' = needle ∧ count.toInt = 0) := fun here => closes here.1.symm
        rw [if_neg opening, if_pos rfl, if_neg apart, shallower, ← Int.sub_eq_add_neg, and_iff_right inside]
        split
        · rename_i lower
          rw [belowZero] at lower
          refine iff_of_false (by simp) ?_
          rintro ⟨_, cut, _⟩
          have := cutLevel cut
          omega
        · rename_i kept
          rw [belowZero] at kept
          rw [further (by omega) later, next]
      · have later := belowOther opening closing below
        rw [if_neg opening, if_neg closing, depthOne, if_neg opening, if_neg closing, Int.add_zero]
        by_cases here : c = needle ∧ count = 0
        · obtain ⟨rfl, rfl⟩ := here
          rw [if_pos ⟨rfl, rfl⟩, if_pos ⟨rfl, rfl⟩, Option.map_eq_some_iff]
          simp only [ih inside later, eq_comm]
          rfl
        · have apart : ¬ (c = needle ∧ count.toInt = 0) := by rwa [← outsideZero]
          rw [if_neg here, if_neg apart, further inside later, and_iff_right inside]

theorem cutSome {level : Int} {cs : List Char} : (∃ pieces, Cut needle level cs pieces) ↔ Closes level cs := by
  induction cs generalizing level with
  | nil => simp [cutNil, closesNil]
  | cons c cs ih =>
    simp only [cutCons, closesCons]
    split
    · rename_i here
      obtain ⟨rfl, rfl⟩ := here
      rw [depthOne, if_neg opens, if_neg closes, Int.add_zero, ← ih]
      simp
    · rw [← ih]
      simp

end

section

variable {piece : List Char} (counted : Counted 0 (Text.trim piece))
include counted

theorem argumentMeans {argument : Option String × String} :
    argumentOf piece = some argument ↔ ¬ piece.all Text.isBlank ∧ Means (Text.trim piece) argument := by
  rw [← Text.trimmedNone, argumentOf]
  by_cases blank : Text.trim piece = []
  · simp [blank]
  · rw [if_neg (by simpa using blank)]
    generalize Text.trim piece = cs at *
    have exactly (key value : List Char) : cutTop? '=' 0 cs = some (key, value) ↔
        cs = key ++ '=' :: value ∧ 0 + depth key = 0 ∧ Undivided '=' 0 key :=
      cutExactly (by decide) (by decide) counted
    have nowhere : cutTop? '=' 0 cs = none ↔ Undivided '=' 0 cs := cutNowhere (by decide) (by decide) counted
    cases found : cutTop? '=' 0 cs with
    | none =>
      have whole := nowhere.mp found
      constructor
      · intro same
        cases Option.some.inj same
        exact ⟨blank, .positional whole⟩
      · rintro ⟨_, meant⟩
        cases meant with
        | keyed outside _ => exact absurd (by rw [outside]; rfl) (whole _ _ rfl)
        | positional => rfl
    | some parts =>
      obtain ⟨key, value⟩ := parts
      obtain ⟨written, outside, first⟩ := (exactly key value).mp found
      constructor
      · intro same
        cases Option.some.inj same
        exact ⟨blank, written ▸ .keyed (by simpa using outside) first⟩
      · rintro ⟨_, meant⟩
        cases meant with
        | @keyed word rest other begins =>
          have again : cutTop? '=' 0 (word ++ '=' :: rest) = some (word, rest) :=
            (exactly word rest).mpr ⟨rfl, (Int.zero_add _).trans other, begins⟩
          cases found.symm.trans again
          rfl
        | positional whole => exact absurd outside (whole key value written)

end

theorem argumentLost {piece : List Char} : argumentOf piece = none ↔ piece.all Text.isBlank := by
  rw [← Text.trimmedNone, argumentOf]
  by_cases blank : Text.trim piece = []
  · simp [blank]
  · rw [if_neg (by simpa using blank)]
    refine iff_of_false ?_ blank
    split <;> simp

theorem argumentsMean {pieces : List (List Char)} (counted : ∀ piece ∈ pieces, Counted 0 (Text.trim piece))
    {arguments : List (Option String × String)} :
    pieces.filterMap argumentOf = arguments ↔ List.Forall₂ Means (visible pieces) arguments := by
  rw [visible]
  induction pieces generalizing arguments with
  | nil => simp [eq_comm]
  | cons piece rest ih =>
    obtain ⟨here, later⟩ := List.forall_mem_cons.mp counted
    cases read : argumentOf piece with
    | none =>
      have blank := argumentLost.mp read
      rw [List.filterMap_cons_none read, List.filter_cons_of_neg (by simpa using blank), ih later]
    | some argument =>
      have filled : ¬ piece.all Text.isBlank := ((argumentMeans here).mp read).1
      have told (other : Option String × String) : argument = other ↔ Means (Text.trim piece) other := by
        rw [← Option.some.injEq, ← read, argumentMeans here]
        exact and_iff_right filled
      rw [List.filterMap_cons_some read, List.filter_cons_of_pos (by simpa using filled), List.map_cons]
      cases arguments with
      | nil => simp
      | cons other others => rw [List.cons.injEq, List.forall₂_cons, told, ih later]

theorem pieceInside {separator : Char} {level : Int} {cs : List Char} {pieces : List (List Char)}
    (cut : Cut separator level cs pieces) : ∀ piece ∈ pieces, piece <:+: cs := by
  induction cut with
  | last _ _ => exact List.forall_mem_singleton.mpr (List.infix_refl _)
  | @next _ first rest _ _ _ _ ih =>
    have behind : rest <:+: first ++ separator :: rest := ⟨first ++ [separator], [], by simp⟩
    exact List.forall_mem_cons.mpr ⟨(List.prefix_append _ _).isInfix, fun piece mem => (ih piece mem).trans behind⟩

section

variable {inner : List Char}

theorem dividedSome : (∃ pieces, Divided ',' inner pieces) ↔ Balanced inner := by
  simp only [dividedCut, balancedCloses]
  exact cutSome (by decide) (by decide)

variable (shallow : Shallow inner) {pieces : List (List Char)}
include shallow

theorem splitDivided : splitTop ',' 0 inner = some pieces ↔ Divided ',' inner pieces :=
  (splitExactly (by decide) (by decide) (le_refl (0 : Int32).toInt) (shallowBelow shallow)).trans dividedCut.symm

theorem piecesCounted (divided : Divided ',' inner pieces) : ∀ piece ∈ pieces, Counted 0 (Text.trim piece) := by
  intro piece mem
  have within := pieceInside (dividedCut.mp divided) piece mem
  exact countedWithin (divided.balanced piece mem) (shallowWithin shallow within) (Text.trimmedInside piece)

end

section

variable {text : String} (shallow : Shallow text.toList)
include shallow

theorem innerShallow {name inner : List Char} (whole : Text.trim text.toList = name ++ '(' :: (inner ++ [')'])) :
    Shallow inner := by
  have within : inner <:+: Text.trim text.toList := ⟨name ++ ['('], [')'], by rw [whole]; simp⟩
  exact shallowWithin shallow (within.trans (Text.trimmedInside _))

theorem parseSpells {call : InlineCall} : parse text = some call ↔ Spells (Text.trim text.toList) call := by
  constructor
  · intro read
    obtain ⟨⟨name, rest⟩, cut, named⟩ := Option.bind_eq_some_iff.mp read
    obtain ⟨whole, unopened⟩ := Text.splitFirstWhole cut
    dsimp only at named
    split at named
    · simp at named
    · rename_i filled
      obtain ⟨inner, ended, divided⟩ := Option.bind_eq_some_iff.mp named
      obtain ⟨pieces, found, same⟩ := Option.bind_eq_some_iff.mp divided
      rw [Text.dropTailExactly.mp ended] at whole
      have within := innerShallow shallow whole
      have parts := (splitDivided within).mp found
      have written : Written (Text.trim text.toList) name inner :=
        { written := whole
          unopened
          named := by rwa [← Text.trimmedNone, ← List.isEmpty_iff]
          balanced := dividedSome.mp ⟨pieces, parts⟩ }
      cases Option.some.inj same
      exact .call written parts ((argumentsMean (piecesCounted within parts)).mp rfl)
  · generalize whole : Text.trim text.toList = cs
    intro spelled
    cases spelled with
    | @call name inner pieces arguments written divided meant =>
      obtain ⟨rfl, unopened, named, _⟩ := written
      have within := innerShallow shallow whole
      have filled : ¬ (Text.trim name).isEmpty := by rwa [List.isEmpty_iff, Text.trimmedNone]
      have ended : Text.dropTail? [')'] (inner ++ [')']) = some inner := Text.dropTailExactly.mpr rfl
      have read := (argumentsMean (piecesCounted within divided)).mpr meant
      rw [parse, whole, Text.splitFirstFound unopened]
      simp only [bind, Option.bind, if_neg filled, ended, (splitDivided within).mpr divided, read]

theorem parseSome : (∃ call, parse text = some call) ↔ ∃ name inner, Written (Text.trim text.toList) name inner := by
  constructor
  · rintro ⟨call, read⟩
    cases (parseSpells shallow).mp read with
    | call written _ _ => exact ⟨_, _, written⟩
  · rintro ⟨name, inner, written⟩
    obtain ⟨pieces, divided⟩ := dividedSome.mpr written.balanced
    have counted := piecesCounted (innerShallow shallow written.written) divided
    exact ⟨_, (parseSpells shallow).mpr (.call written divided ((argumentsMean counted).mp rfl))⟩

end

end TabularRdf.Mapping.InlineCall
