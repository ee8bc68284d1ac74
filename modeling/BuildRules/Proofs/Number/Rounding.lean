import BuildRules.Number.Binary64
import Mathlib.Tactic.Ring

/-! Rounding to binary64 depends on the quotient alone, leaves every magnitude in place, and
has far quotients at the two ends. -/
namespace BuildRules.Binary64

theorem binade_pos : 0 < binade := Nat.pow_pos (by decide)

theorem stepsInOne_pos : 0 < stepsInOne := Nat.pow_pos (by decide)

theorem two_mul_stepsInOne : 2 * stepsInOne = 2 ^ (1074 + 1) := by
  have doubled (count : Nat) : 2 * Nat.pow 2 count = 2 ^ (count + 1) := Nat.pow_succ'.symm
  rw [stepsInOne, doubled]

theorem two_pow_le_ten_pow (count : Nat) : 2 ^ (3 * count) ≤ 10 ^ count := by
  rw [Nat.pow_mul]
  exact Nat.pow_le_pow_left (by decide) count

theorem roundQuotient_scale {scale : Nat} (positive : 0 < scale) (num den : Nat) :
    roundQuotient (scale * num) (scale * den) = roundQuotient num den := by
  have below : 2 * (scale * (num % den)) < scale * den ↔ 2 * (num % den) < den := by
    rw [Nat.mul_left_comm]
    exact Nat.mul_lt_mul_left positive
  have above : scale * den < 2 * (scale * (num % den)) ↔ den < 2 * (num % den) := by
    rw [Nat.mul_left_comm]
    exact Nat.mul_lt_mul_left positive
  simp only [roundQuotient, Nat.mul_div_mul_left _ _ positive, Nat.mul_mod_mul_left, below, above]

theorem roundQuotient_exact {den : Nat} (positive : 0 < den) (whole : Nat) :
    roundQuotient (whole * den) den = whole := by
  simp [roundQuotient, Nat.mul_div_cancel _ positive, positive]

theorem nearestIndex_of_small {num den : Nat} (small : num * stepsInOne / den < 2 * binade) :
    nearestIndex num den = roundQuotient (num * stepsInOne) den := by
  simp only [nearestIndex, if_pos small]

theorem nearestIndex_of_large {num den : Nat} (large : ¬ num * stepsInOne / den < 2 * binade) :
    nearestIndex num den =
      ((num * stepsInOne / den).log2 - 52) * binade + roundQuotient (num * stepsInOne)
        (den * Nat.pow 2 ((num * stepsInOne / den).log2 - 52)) := by
  simp only [nearestIndex, if_neg large]

theorem nearestIndex_scale {scale : Nat} (positive : 0 < scale) (num den : Nat) :
    nearestIndex (scale * num) (scale * den) = nearestIndex num den := by
  simp only [nearestIndex, Nat.mul_assoc scale, Nat.mul_div_mul_left _ _ positive,
    roundQuotient_scale positive]

theorem nearestIndex_congr {num den other divisor : Nat} (positive : 0 < den)
    (divides : 0 < divisor) (equal : num * divisor = other * den) :
    nearestIndex num den = nearestIndex other divisor := by
  calc nearestIndex num den
      = nearestIndex (divisor * num) (divisor * den) := (nearestIndex_scale divides num den).symm
    _ = nearestIndex (den * other) (den * divisor) := by
      rw [Nat.mul_comm divisor num, equal, Nat.mul_comm other, Nat.mul_comm divisor]
    _ = nearestIndex other divisor := nearestIndex_scale positive other divisor

theorem steps_of_lt {index : Nat} (small : index < 2 * binade) : steps index = index := by
  have level : index / binade - 1 = 0 := by
    have bound : index / binade < 2 := Nat.div_lt_of_lt_mul (by rwa [Nat.mul_comm] at small)
    omega
  rw [steps, if_pos small, level]
  exact Nat.mul_one index

theorem log2_steps {index : Nat} (large : 2 * binade ≤ index) :
    (steps index).log2 = 52 + (index / binade - 1) := by
  have size : binade = 2 ^ 52 := rfl
  have rest : index % binade < binade := Nat.mod_lt _ binade_pos
  have value : steps index = (binade + index % binade) * 2 ^ (index / binade - 1) := by
    rw [steps, if_neg (Nat.not_lt.mpr large)]
    rfl
  have nonzero : steps index ≠ 0 := by
    rw [value]
    exact Nat.mul_ne_zero (by omega) (Nat.ne_of_gt (Nat.pow_pos (by decide)))
  rw [Nat.log2_eq_iff nonzero, value, Nat.pow_add, Nat.add_right_comm, Nat.pow_add]
  constructor
  · exact Nat.mul_le_mul_right _ (by omega)
  · exact Nat.mul_lt_mul_of_pos_right (by omega) (Nat.pow_pos (by decide))

theorem nearestIndex_steps (index : Nat) : nearestIndex (steps index) stepsInOne = index := by
  have whole : steps index * stepsInOne / stepsInOne = steps index :=
    Nat.mul_div_cancel _ stepsInOne_pos
  by_cases small : index < 2 * binade
  · have value := steps_of_lt small
    rw [value] at whole ⊢
    rw [nearestIndex_of_small (whole.symm ▸ small)]
    exact roundQuotient_exact stepsInOne_pos index
  · have large : 2 * binade ≤ index := Nat.not_lt.mp small
    have value : steps index = (binade + index % binade) * Nat.pow 2 (index / binade - 1) := by
      rw [steps, if_neg small]
    have level : 2 ≤ index / binade :=
      (Nat.le_div_iff_mul_le binade_pos).mpr large
    have power : 0 < Nat.pow 2 (index / binade - 1) := Nat.pow_pos (by decide)
    have unbounded : ¬ steps index * stepsInOne / stepsInOne < 2 * binade := by
      have doubled : 2 ≤ Nat.pow 2 (index / binade - 1) := Nat.le_self_pow (by omega) 2
      rw [whole, value, Nat.not_lt, Nat.mul_comm 2]
      exact Nat.mul_le_mul (Nat.le_add_right _ _) doubled
    have shift : (steps index).log2 - 52 = index / binade - 1 := by
      rw [log2_steps large, Nat.add_sub_cancel_left]
    have rounded : roundQuotient (steps index * stepsInOne)
        (stepsInOne * Nat.pow 2 (index / binade - 1)) = binade + index % binade := by
      rw [value, Nat.mul_assoc, Nat.mul_comm (Nat.pow 2 (index / binade - 1))]
      exact roundQuotient_exact (Nat.mul_pos stepsInOne_pos power) _
    rw [nearestIndex_of_large unbounded, whole, shift, rounded]
    calc (index / binade - 1) * binade + (binade + index % binade)
        = (index / binade - 1 + 1) * binade + index % binade := by ring
      _ = index / binade * binade + index % binade := by rw [Nat.sub_add_cancel (by omega)]
      _ = index := Nat.div_add_mod' index binade

/-- A quotient of at least `10 ^ 400` is past the last finite magnitude. -/
theorem finiteCount_le_nearestIndex {num den : Nat} (positive : 0 < den)
    (large : 10 ^ 400 * den ≤ num) : finiteCount ≤ nearestIndex num den := by
  have whole : 2 ^ (3 * 400 + 1074) ≤ num * stepsInOne / den := by
    apply (Nat.le_div_iff_mul_le positive).mpr
    rw [Nat.pow_add, Nat.mul_right_comm]
    exact Nat.mul_le_mul_right stepsInOne
      (Nat.le_trans (Nat.mul_le_mul_right den (two_pow_le_ten_pow 400)) large)
  have nonzero : num * stepsInOne / den ≠ 0 :=
    Nat.ne_of_gt (Nat.lt_of_lt_of_le (Nat.pow_pos (by decide)) whole)
  have log : 3 * 400 + 1074 ≤ (num * stepsInOne / den).log2 := (Nat.le_log2 nonzero).mpr whole
  have unbounded : ¬ num * stepsInOne / den < 2 * binade := by
    have room : 2 * binade ≤ 2 ^ (3 * 400 + 1074) := by
      have size : 2 * binade = 2 ^ 53 := rfl
      rw [size]
      exact Nat.pow_le_pow_right (by decide) (by decide)
    exact Nat.not_lt.mpr (Nat.le_trans room whole)
  have shift : 2047 ≤ (num * stepsInOne / den).log2 - 52 := by omega
  rw [nearestIndex_of_large unbounded]
  exact Nat.le_trans (Nat.mul_le_mul_right binade shift) (Nat.le_add_right _ _)

/-- A quotient of at most `10 ^ -401` is nearest to zero. -/
theorem nearestIndex_eq_zero {num den : Nat} (positive : 0 < den)
    (small : num * 10 ^ 401 ≤ den) : nearestIndex num den = 0 := by
  have half : 2 * (num * stepsInOne) < den := by
    rcases Nat.eq_zero_or_pos num with rfl | present
    · simpa using positive
    · calc 2 * (num * stepsInOne) = num * 2 ^ (1074 + 1) := by
            rw [Nat.mul_left_comm, two_mul_stepsInOne]
        _ < num * 2 ^ (3 * 401) :=
            Nat.mul_lt_mul_of_pos_left (Nat.pow_lt_pow_right (by decide) (by decide)) present
        _ ≤ num * 10 ^ 401 := Nat.mul_le_mul_left num (two_pow_le_ten_pow 401)
        _ ≤ den := small
  have below : num * stepsInOne < den := by omega
  have none : num * stepsInOne / den = 0 := Nat.div_eq_of_lt below
  have room : 0 < 2 * binade := Nat.mul_pos (by decide) binade_pos
  rw [nearestIndex_of_small (none.symm ▸ room), roundQuotient, none, Nat.mod_eq_of_lt below]
  simp only [if_pos half]

/-- Finite magnitudes end far below the integers that are too long. -/
theorem steps_lt (index : Fin finiteCount) {top : Nat} (large : 2099 ≤ top) :
    steps index < 2 ^ top := by
  have small := index.isLt
  have quotient : index.val / binade - 1 ≤ top - 53 := by
    have bound : index.val / binade < 2047 := Nat.div_lt_of_lt_mul (Nat.mul_comm .. ▸ small)
    omega
  have significand : (if index.val < 2 * binade then index.val
      else binade + index.val % binade) < 2 ^ 53 := by
    have rest := Nat.mod_lt index.val binade_pos
    have doubled : 2 * binade = 2 ^ 53 := by decide
    split
    next below => exact doubled ▸ below
    next => omega
  have power : 2 ^ (index.val / binade - 1) ≤ 2 ^ (top - 53) :=
    Nat.pow_le_pow_right Nat.two_pos quotient
  calc steps index
      < 2 ^ 53 * 2 ^ (top - 53) :=
        Nat.mul_lt_mul_of_lt_of_le significand power (Nat.two_pow_pos _)
    _ = 2 ^ top := by
      rw [← Nat.pow_add]
      congr 1
      omega

theorem natAbs_truncate?_lt {number : Binary64} {whole : Int}
    (found : number.truncate? = some whole) {top : Nat} (large : 2099 ≤ top) :
    whole.natAbs < 2 ^ top := by
  cases number with
  | nan => cases found
  | infinity => cases found
  | finite negative index =>
    have bound : steps index / stepsInOne < 2 ^ top :=
      Nat.lt_of_le_of_lt (Nat.div_le_self _ _) (steps_lt index large)
    cases negative with
    | false =>
      obtain rfl := Option.some.inj found
      exact bound
    | true =>
      obtain rfl := Option.some.inj found
      rw [if_pos rfl, Int.natAbs_neg]
      exact bound

end BuildRules.Binary64
