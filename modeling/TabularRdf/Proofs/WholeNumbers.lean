import Mathlib.Algebra.Ring.Nat
import TabularRdf.Decimal.Layout

/-! Whole numbers of at most 53 bits. Such a number is a binary64 number; no other whole number rounds to it when it has
fewer bits, so its shortest digits are its own, and they are laid out as its numeral. -/
namespace TabularRdf.Decimal

theorem digitsScaled {d : Nat} (given : d ≠ 0) (t : Nat) :
    Nat.toDigits 10 (d * 10 ^ t) = Nat.toDigits 10 d ++ List.replicate t '0' := by
  induction t with
  | zero => simp
  | succ t ih =>
    have positive : 0 < d * 10 ^ t := Nat.mul_pos (Nat.pos_of_ne_zero given) (Nat.pow_pos (by decide))
    have next : d * 10 ^ (t + 1) = 10 * (d * 10 ^ t) + 0 := by rw [Nat.pow_succ, Nat.add_zero]; ac_rfl
    rw [next, ← Nat.toDigits_append_toDigits (by decide) positive (by decide), ih, List.replicate_succ',
      List.append_assoc]
    rfl

theorem digitZero : ∀ r < 10, (Nat.digitChar r == '0') = true → r = 0 := by decide

def endingZeros (d : Nat) : Nat := ((Nat.toDigits 10 d).reverse.takeWhile (· == '0')).length

theorem zerosDivide (d : Nat) : 10 ^ endingZeros d ∣ d := by
  induction d using Nat.strong_induction_on with
  | _ d ih =>
    by_cases short : d < 10
    · have digits : ∀ d < 10, 10 ^ endingZeros d ∣ d := by decide
      exact digits d short
    · rw [endingZeros, Nat.toDigits_of_base_le (by decide) (Nat.le_of_not_lt short), List.reverse_append,
        List.reverse_singleton, List.singleton_append, List.takeWhile_cons]
      split
      · rename_i zero
        have last := digitZero _ (Nat.mod_lt d (by decide)) zero
        have whole : 10 * (d / 10) = d := by omega
        have divides := Nat.mul_dvd_mul_left 10 (ih (d / 10) (by omega))
        rw [whole, Nat.mul_comm, ← Nat.pow_succ] at divides
        exact divides
      · exact Nat.one_dvd d

theorem stripped (d t : Nat) : ∃ e s : Nat, Digits.strip ⟨d, t⟩ = ⟨e, s⟩ ∧ e * 10 ^ s = d * 10 ^ t := by
  obtain ⟨q, same⟩ := zerosDivide d
  refine ⟨d / 10 ^ endingZeros d, t + endingZeros d, rfl, ?_⟩
  rw [Nat.pow_add, Nat.mul_comm (10 ^ t), ← Nat.mul_assoc, Nat.div_mul_cancel (zerosDivide d)]

section

variable {n : Nat}

theorem leastBits : Binary64.leastMantissa = 2 ^ 52 := by decide +kernel

theorem boundBits : Binary64.mantissaBound = 2 ^ 53 := by decide +kernel

theorem shiftedUp (k : Nat) : Binary64.shiftRatio n 1 (-(k : Int)) = (n * 2 ^ k, 1) := by
  unfold Binary64.shiftRatio
  split
  · have zero : k = 0 := by omega
    subst zero
    simp
  · simp

theorem mantissaLow (given : n ≠ 0) (bits : n.log2 < 53) : 2 ^ 52 ≤ n * 2 ^ (52 - n.log2) :=
  calc 2 ^ 52 = 2 ^ n.log2 * 2 ^ (52 - n.log2) := by rw [← Nat.pow_add]; congr 1; omega
    _ ≤ n * 2 ^ (52 - n.log2) := Nat.mul_le_mul_right _ (Nat.log2_self_le given)

theorem mantissaHigh (bits : n.log2 < 53) : n * 2 ^ (52 - n.log2) < 2 ^ 53 :=
  calc n * 2 ^ (52 - n.log2) < 2 ^ (n.log2 + 1) * 2 ^ (52 - n.log2) :=
        Nat.mul_lt_mul_of_pos_right Nat.lt_log2_self (Nat.two_pow_pos _)
    _ = 2 ^ 53 := by rw [← Nat.pow_add]; congr 1; omega

theorem exponentWhole (given : n ≠ 0) (bits : n.log2 < 53) :
    Binary64.exponentOf n 1 = -((52 - n.log2 : Nat) : Int) := by
  have guess : (n.log2 : Int) - (Nat.log2 1 : Int) - 52 = -((52 - n.log2 : Nat) : Int) := by
    have one : Nat.log2 1 = 0 := by decide
    omega
  have enough : ¬ n * 2 ^ (52 - n.log2) < 1 * Binary64.leastMantissa := by
    rw [Nat.one_mul, leastBits]
    exact Nat.not_lt_of_le (mantissaLow given bits)
  simp only [Binary64.exponentOf, guess, shiftedUp, if_neg enough, Binary64.leastExponent]
  omega

theorem ratioWhole (given : n ≠ 0) (bits : n.log2 < 53) : Binary64.ofRatio? n 1 =
    some ⟨false, n * 2 ^ (52 - n.log2), -((52 - n.log2 : Nat) : Int)⟩ := by
  have rounded : roundDiv (n * 2 ^ (52 - n.log2)) 1 = n * 2 ^ (52 - n.log2) := by simp [roundDiv, Nat.mod_one]
  have below : n * 2 ^ (52 - n.log2) ≠ Binary64.mantissaBound := by
    rw [boundBits]
    exact Nat.ne_of_lt (mantissaHigh bits)
  have inside : ¬ Binary64.greatestExponent < -((52 - n.log2 : Nat) : Int) := by
    unfold Binary64.greatestExponent
    omega
  unfold Binary64.ofRatio?
  rw [if_neg given, exponentWhole given bits]
  dsimp only
  rw [shiftedUp]
  dsimp only
  rw [rounded, if_neg below]
  dsimp only
  rw [if_neg inside]

structure Whole (n : Nat) (x : Binary64) (k : Nat) : Prop where
  given : n ≠ 0
  few : k ≤ 52
  mantissa : x.mantissa = n * 2 ^ k
  exponent : x.exponent = -(k : Int)
  bits : Nat.log2 x.mantissa = 52

variable {x : Binary64} {k : Nat}

/- The bounds of a whole number in the units of a grid: a step of its last bit is four of them. -/
theorem wholeBounds (whole : Whole n x k) : (Rounding.of x).value = n * 2 ^ (k + 2) ∧
    (Rounding.of x).high = n * 2 ^ (k + 2) + 2 ∧ n * 2 ^ (k + 2) ≤ (Rounding.of x).low + 2 ∧
    (Rounding.of x).low < n * 2 ^ (k + 2) := by
  have four : 4 * x.mantissa = n * 2 ^ (k + 2) := by
    rw [whole.mantissa, Nat.pow_add, Nat.mul_comm 4, Nat.mul_assoc]
  have positive : 0 < n * 2 ^ (k + 2) := Nat.mul_pos (Nat.pos_of_ne_zero whole.given) (Nat.two_pow_pos _)
  simp only [Rounding.of, four]
  refine ⟨trivial, trivial, ?_⟩
  split <;> omega

theorem stepsApart {a b step : Nat} (wide : 4 ≤ step) (less : a < b) : a * step + 4 ≤ b * step :=
  calc a * step + 4 ≤ a * step + step := Nat.add_le_add_left wide _
    _ = (a + 1) * step := (Nat.succ_mul a step).symm
    _ ≤ b * step := Nat.mul_le_mul_right step less

theorem intervalItself (whole : Whole n x k) (a : Nat) : (if (Rounding.of x).closed then
      decide ((Rounding.of x).low ≤ a * 2 ^ (k + 2)) && decide (a * 2 ^ (k + 2) ≤ (Rounding.of x).high)
    else decide ((Rounding.of x).low < a * 2 ^ (k + 2)) && decide (a * 2 ^ (k + 2) < (Rounding.of x).high)) =
      decide (a = n) := by
  obtain ⟨_, high, low, less⟩ := wholeBounds whole
  have wide : 4 ≤ 2 ^ (k + 2) := Nat.pow_le_pow_right Nat.two_pos (Nat.le_add_left 2 k)
  have below (less : a < n) := stepsApart wide less
  have above (more : n < a) := stepsApart wide more
  have equal (same : a = n) : a * 2 ^ (k + 2) = n * 2 ^ (k + 2) := congrArg (· * _) same
  rw [high, Bool.eq_iff_iff]
  split <;> simp only [Bool.and_eq_true, decide_eq_true_eq] <;> omega

theorem gridUnits (whole : Whole n x k) (t : Nat) :
    Nat.pow 2 (Rounding.of x).exponent.toNat * Nat.pow 10 (-(t : Int)).toNat = 1 ∧
      Nat.pow 2 (-(Rounding.of x).exponent).toNat * Nat.pow 10 (t : Int).toNat = 10 ^ t * 2 ^ (k + 2) := by
  have exponent : (Rounding.of x).exponent = -((k + 2 : Nat) : Int) := by
    simp only [Rounding.of, whole.exponent]
    omega
  rw [exponent, Int.toNat_neg_natCast, Int.toNat_neg_natCast, Int.neg_neg, Int.toNat_natCast, Int.toNat_natCast,
    Nat.mul_comm]
  exact ⟨rfl, Nat.mul_comm _ _⟩

theorem onlyItself (whole : Whole n x k) (tie : Tie) (t : Nat) :
    (Rounding.of x).onGrid? tie t = if 10 ^ t ∣ n then some (n / 10 ^ t) else none := by
  obtain ⟨unit, step⟩ := gridUnits whole t
  have below : n * 2 ^ (k + 2) / (10 ^ t * 2 ^ (k + 2)) = n / 10 ^ t :=
    Nat.mul_div_mul_right _ _ (Nat.two_pow_pos _)
  have beyond : decide ((n / 10 ^ t + 1) * 10 ^ t = n) = false := by
    rw [decide_eq_false_iff_not, Nat.mul_comm]
    exact Nat.ne_of_gt (Nat.lt_mul_div_succ n (Nat.pow_pos (by decide)))
  unfold Rounding.onGrid?
  simp only [unit, step, Nat.mul_one, (wholeBounds whole).1, below, ← Nat.mul_assoc, intervalItself whole, beyond]
  by_cases divides : 10 ^ t ∣ n
  · rw [if_pos divides, decide_eq_true (Nat.div_mul_cancel divides)]
  · have apart : n / 10 ^ t * 10 ^ t ≠ n := fun same => divides ⟨n / 10 ^ t, by rw [Nat.mul_comm, same]⟩
    rw [if_neg divides, decide_eq_false apart]

theorem scaleBounds (whole : Whole n x k) : 0 ≤ leadingScale x ∧ leadingScale x < 20 := by
  have few := whole.few
  rw [leadingScale, whole.bits, whole.exponent, Int.fdiv_eq_ediv_of_nonneg _ (by decide)]
  omega

theorem foundEarly {α : Type} {f : Nat → Option α} {size top : Nat} (bound : top < size) {a : α}
    (given : f top = some a) : ∃ i ≤ top, ∃ b, f i = some b ∧ (List.range size).findSome? f = some b := by
  have tried : top ∈ List.range size := List.mem_range.mpr bound
  have some : ((List.range size).findSome? f).isSome :=
    List.findSome?_isSome_iff.mpr ⟨top, tried, Option.isSome_iff_exists.mpr ⟨a, given⟩⟩
  obtain ⟨b, found⟩ := Option.isSome_iff_exists.mp some
  obtain ⟨before, i, after, range, taken, missed⟩ := List.findSome?_eq_some_iff.mp found
  refine ⟨i, ?_, b, taken, found⟩
  have sorted : (before ++ i :: after).Pairwise (· < ·) := range ▸ List.pairwise_lt_range
  rcases List.mem_append.mp (range ▸ tried) with early | late
  · cases (missed top early).symm.trans given
  · rcases List.mem_cons.mp late with rfl | behind
    · exact Nat.le_refl _
    · exact Nat.le_of_lt (List.rel_of_pairwise_cons (List.pairwise_append.mp sorted).2.1 behind)

theorem shortestWhole (whole : Whole n x k) (tie : Tie) : ∃ d t : Nat, shortest tie x = ⟨d, t⟩ ∧ d * 10 ^ t = n := by
  obtain ⟨low, high⟩ := scaleBounds whole
  obtain ⟨top, leading⟩ := Int.eq_ofNat_of_zero_le low
  rw [leading] at high
  let grid (i : Nat) : Option Digits :=
    ((Rounding.of x).onGrid? tie ((top : Int) - i)).map fun k => ⟨k, (top : Int) - i⟩
  -- the number stands on the grid of single units, which is tried; so the grid that is taken is that or a coarser one
  have units : grid top = some ⟨n, ((0 : Nat) : Int)⟩ := by
    have zero : (top : Int) - top = ((0 : Nat) : Int) := by omega
    simp only [grid]
    rw [zero, onlyItself whole, Nat.pow_zero, if_pos (Nat.one_dvd n), Nat.div_one]
    rfl
  obtain ⟨i, coarse, digits, taken, found⟩ := foundEarly (by omega : top < 20) units
  obtain ⟨t, scale⟩ : ∃ t : Nat, (top : Int) - i = t := ⟨top - i, by omega⟩
  simp only [grid] at taken
  rw [scale, onlyItself whole] at taken
  split at taken
  · rename_i divides
    cases Option.some.inj taken
    obtain ⟨d, s, stripped, same⟩ := stripped (n / 10 ^ t) t
    refine ⟨d, s, ?_, same.trans (Nat.div_mul_cancel divides)⟩
    rw [shortest, leading, ← stripped]
    exact congrArg (fun found => Digits.strip (Option.getD found ⟨0, 0⟩)) found
  · cases taken

theorem textWhole (whole : Whole n x k) :
    Layout.cell.text x = String.ofList ((if x.negative then ['-'] else []) ++ Nat.toDigits 10 n) := by
  obtain ⟨d, t, digits, same⟩ := shortestWhole whole .away
  have given : d ≠ 0 := fun zero => whole.given (by rw [← same, zero, Nat.zero_mul])
  have filled : x.isZero = false := by
    have positive : x.mantissa ≠ 0 := fun zero => absurd (zero ▸ whole.bits) (by decide)
    simp [Binary64.isZero, positive]
  have shortest : shortest Layout.cell.tie x = ⟨d, t⟩ := digits
  have laid : positionalText Layout.cell.keepsPoint (Nat.toDigits 10 d) t = Nat.toDigits 10 n := by
    rw [positionalText, if_pos (Int.natCast_nonneg t), Int.toNat_natCast, ← same, digitsScaled given]
    exact List.append_nil _
  simp only [Layout.text, filled, Bool.false_eq_true, if_false, shortest, laid]
  rfl

theorem wholeNumber (given : n ≠ 0) (small : n < 2 ^ 53) (negative : Bool) : ∃ k : Nat, Whole n
    ⟨negative, n * 2 ^ k, -(k : Int)⟩ k ∧ Binary64.ofRatio? n 1 = some ⟨false, n * 2 ^ k, -(k : Int)⟩ := by
  have bits : n.log2 < 53 := (Nat.log2_lt given).mpr small
  refine ⟨52 - n.log2, ⟨given, Nat.sub_le _ _, rfl, rfl, ?_⟩, ratioWhole given bits⟩
  have positive : n * 2 ^ (52 - n.log2) ≠ 0 := Nat.mul_ne_zero given (Nat.pos_iff_ne_zero.mp (Nat.two_pow_pos _))
  have low := (Nat.le_log2 positive).mpr (mantissaLow given bits)
  have high := (Nat.log2_lt positive).mpr (mantissaHigh bits)
  exact Nat.le_antisymm (Nat.le_of_lt_succ high) low

end

theorem numeral (n : Int) :
    toString n = String.ofList ((if n < 0 then ['-'] else []) ++ Nat.toDigits 10 n.natAbs) := by
  cases n with
  | ofNat m => rfl
  | negSucc m =>
    rw [if_pos (Int.negSucc_lt_zero m), String.ofList_append]
    rfl

theorem wholeText {n : Int} (small : n.natAbs ≤ 2 ^ 53) : Layout.cell.text (Binary64.ofInt n) = toString n := by
  by_cases last : n.natAbs = 2 ^ 53
  -- the least number of 54 bits: the next number rounds to it too, but stands on no coarser grid
  · rcases Int.natAbs_eq_iff.mp last with same | same
    · rw [same]
      decide +kernel
    · rw [same]
      decide +kernel
  by_cases zero : n = 0
  · rw [zero]
    decide +kernel
  obtain ⟨k, whole, ratio⟩ := wholeNumber (Int.natAbs_ne_zero.mpr zero) (Nat.lt_of_le_of_ne small last) (decide (n < 0))
  have number : Binary64.ofInt n = ⟨decide (n < 0), n.natAbs * 2 ^ k, -(k : Int)⟩ := by
    unfold Binary64.ofInt
    rw [ratio]
    by_cases negative : n < 0 <;> simp [negative, Binary64.neg]
  rw [number, textWhole whole, numeral]
  simp

end TabularRdf.Decimal
