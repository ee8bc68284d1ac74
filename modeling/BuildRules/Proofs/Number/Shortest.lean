import BuildRules.Json.Parse
import BuildRules.Proofs.Number.Rounding
import Mathlib.Data.List.TakeWhile

namespace BuildRules

namespace Json

theorem decimalValue_append (front back : List Char) :
    decimalValue (front ++ back) = Nat.ofDigitChars 10 back (decimalValue front) :=
  Nat.ofDigitChars_append 0

theorem decimalValue_zeros (digits : List Char) (count : Nat) :
    decimalValue (digits ++ List.replicate count '0') = decimalValue digits * 10 ^ count := by
  rw [decimalValue_append, Nat.ofDigitChars_replicate_zero, Nat.mul_comm]

theorem decimalValue_zeros_append (digits : List Char) (count : Nat) :
    decimalValue (List.replicate count '0' ++ digits) = decimalValue digits := by
  have zeros : decimalValue (List.replicate count '0') = 0 := by
    simpa [decimalValue] using decimalValue_zeros [] count
  rw [decimalValue_append, zeros]
  rfl

theorem decimalValue_toDigits (value : Nat) : decimalValue (Nat.toDigits 10 value) = value :=
  Nat.ofDigitChars_ten_toDigits

end Json

namespace Decimal

open Binary64

theorem readIndex_eq (digits : Nat) (exponent : Int) :
    readIndex digits exponent =
      nearestIndex (digits * 10 ^ exponent.toNat) (10 ^ (-exponent).toNat) := by
  by_cases whole : 0 ≤ exponent
  · have none : (-exponent).toNat = 0 := by omega
    rw [readIndex, if_pos whole, none]
    rfl
  · have none : exponent.toNat = 0 := by omega
    rw [readIndex, if_neg whole, none]
    exact congrArg₂ nearestIndex (Nat.mul_one digits).symm rfl

/-- Trailing zeros and the exponent make up for each other. -/
theorem readIndex_zeros (digits count : Nat) (exponent : Int) :
    readIndex (digits * 10 ^ count) exponent = readIndex digits (exponent + count) := by
  rw [readIndex_eq, readIndex_eq]
  apply nearestIndex_congr (Nat.pow_pos (by decide)) (Nat.pow_pos (by decide))
  have powers : count + exponent.toNat + (-(exponent + count)).toNat =
      (exponent + count).toNat + (-exponent).toNat := by omega
  calc digits * 10 ^ count * 10 ^ exponent.toNat * 10 ^ (-(exponent + count)).toNat
      = digits * 10 ^ (count + exponent.toNat + (-(exponent + count)).toNat) := by ring
    _ = digits * 10 ^ (exponent + count).toNat * 10 ^ (-exponent).toNat := by
      rw [powers, Nat.pow_add, Nat.mul_assoc]

theorem readIndex_zero (exponent : Int) : readIndex 0 exponent = 0 := by
  rw [readIndex_eq]
  exact nearestIndex_eq_zero (Nat.pow_pos (by decide)) (by simp)

theorem pow_le_of_length {value : Nat} (nonzero : value ≠ 0) :
    10 ^ ((Nat.toDigits 10 value).length - 1) ≤ value := by
  have positive : 0 < (Nat.toDigits 10 value).length := Nat.length_toDigits_pos
  by_cases single : (Nat.toDigits 10 value).length - 1 = 0
  · rw [single]
    exact Nat.pos_of_ne_zero nonzero
  · have longer : ¬ (Nat.toDigits 10 value).length ≤ (Nat.toDigits 10 value).length - 1 := by omega
    rw [Nat.length_toDigits_le_iff (by decide) (Nat.pos_of_ne_zero single)] at longer
    exact Nat.not_lt.mp longer

theorem finiteCount_le_readIndex {digits : Nat} {exponent : Int} (nonzero : digits ≠ 0)
    (large : 400 < exponent + (Nat.toDigits 10 digits).length) :
    finiteCount ≤ readIndex digits exponent := by
  rw [readIndex_eq]
  apply finiteCount_le_nearestIndex (Nat.pow_pos (by decide))
  have room : 400 + (-exponent).toNat ≤
      (Nat.toDigits 10 digits).length - 1 + exponent.toNat := by omega
  calc 10 ^ 400 * 10 ^ (-exponent).toNat = 10 ^ (400 + (-exponent).toNat) :=
        (Nat.pow_add 10 400 _).symm
    _ ≤ 10 ^ ((Nat.toDigits 10 digits).length - 1 + exponent.toNat) :=
        Nat.pow_le_pow_right (by decide) room
    _ = 10 ^ ((Nat.toDigits 10 digits).length - 1) * 10 ^ exponent.toNat := Nat.pow_add ..
    _ ≤ digits * 10 ^ exponent.toNat := Nat.mul_le_mul_right _ (pow_le_of_length nonzero)

theorem readIndex_eq_zero {digits : Nat} {exponent : Int}
    (small : exponent + (Nat.toDigits 10 digits).length < -400) :
    readIndex digits exponent = 0 := by
  rw [readIndex_eq]
  apply nearestIndex_eq_zero (Nat.pow_pos (by decide))
  have bound : digits < 10 ^ (Nat.toDigits 10 digits).length :=
    (Nat.length_toDigits_le_iff (by decide) Nat.length_toDigits_pos).mp (Nat.le_refl _)
  have room : (Nat.toDigits 10 digits).length + exponent.toNat + 401 ≤ (-exponent).toNat := by
    omega
  calc digits * 10 ^ exponent.toNat * 10 ^ 401
      ≤ 10 ^ (Nat.toDigits 10 digits).length * 10 ^ exponent.toNat * 10 ^ 401 :=
        Nat.mul_le_mul_right _ (Nat.mul_le_mul_right _ (Nat.le_of_lt bound))
    _ = 10 ^ ((Nat.toDigits 10 digits).length + exponent.toNat + 401) := by
        rw [Nat.pow_add, Nat.pow_add]
    _ ≤ 10 ^ (-exponent).toNat := Nat.pow_le_pow_right (by decide) room

/-- The answers known without building the power are those of the power. -/
theorem ofDecimal_eq (negative : Bool) (digits : Nat) (exponent : Int) :
    ofDecimal negative digits exponent = ofIndex negative (readIndex digits exponent) := by
  have origin : ofIndex negative 0 = zero negative := rfl
  rw [ofDecimal]
  split
  next none =>
    rw [none, readIndex_zero, origin]
  next nonzero =>
    split
    next large =>
      have past := Nat.not_lt.mpr (finiteCount_le_readIndex nonzero large)
      rw [ofIndex, dif_neg past]
    next =>
      split
      next small =>
        rw [readIndex_eq_zero small, origin]
      next =>
        rw [readIndex]
        split
        next => rfl
        next => rfl

theorem roundQuotient_cases (num den : Nat) :
    roundQuotient num den = num / den ∨ roundQuotient num den = num / den + 1 := by
  simp only [roundQuotient]
  split
  · exact .inl rfl
  · split
    · exact .inr rfl
    · rcases Nat.mod_two_eq_zero_or_one (num / den) with even | odd
      · exact .inl (by rw [even, Nat.add_zero])
      · exact .inr (by rw [odd])

theorem readIndex_of_onGrid {index count value : Nat} {point exponent : Int}
    (found : onGrid? index point count = some (value, exponent)) :
    readIndex value exponent = index := by
  simp only [onGrid?] at found
  split at found
  next both =>
    obtain ⟨lower, upper⟩ := Bool.and_eq_true_iff.mp both
    cases found
    rcases roundQuotient_cases _ _ with down | up
    · rw [down]
      simpa using lower
    · rw [up]
      simpa using upper
  next =>
    split at found
    next lower =>
      cases found
      simpa using lower
    next =>
      split at found
      next upper =>
        cases found
        simpa using (Bool.and_eq_true_iff.mp upper).1
      next => cases found

theorem readIndex_exact (index : Nat) :
    readIndex (exact index).1 (exact index).2 = index := by
  have powers (count : Nat) : 5 ^ count * 2 ^ count = 10 ^ count := (Nat.mul_pow 5 2 count).symm
  have scaled (count : Nat) (equal : 2 ^ count = stepsInOne) :
      nearestIndex (steps index * Nat.pow 5 count) (10 ^ count) = index := by
    have same : nearestIndex (steps index * Nat.pow 5 count) (10 ^ count) =
        nearestIndex (steps index) stepsInOne := by
      apply nearestIndex_congr (Nat.pow_pos (by decide)) stepsInOne_pos
      rw [← equal, Nat.mul_assoc]
      exact congrArg (steps index * ·) (powers count)
    rw [same, nearestIndex_steps]
  have negative : ¬ 0 ≤ (exact index).2 := (by decide : ¬ (0 : Int) ≤ -1074)
  rw [readIndex, if_neg negative]
  exact scaled 1074 rfl

theorem dropTrailingZeros_append (digits : List Char) :
    ∃ count, dropTrailingZeros digits ++ List.replicate count '0' = digits := by
  refine ⟨(digits.reverse.takeWhile (· == '0')).length, ?_⟩
  have zeros : digits.reverse.takeWhile (· == '0') =
      List.replicate (digits.reverse.takeWhile (· == '0')).length '0' := by
    apply List.eq_replicate_of_mem
    intro c member
    simpa using List.mem_takeWhile_imp member
  rw [dropTrailingZeros, ← List.reverse_replicate, ← zeros, ← List.reverse_append,
    List.takeWhile_append_dropWhile, List.reverse_reverse]

theorem head_toDigits {value : Nat} (nonzero : value ≠ 0) :
    ∃ first rest, Nat.toDigits 10 value = first :: rest ∧ first ≠ '0' := by
  induction value using Nat.strongRecOn with
  | ind value ih =>
    by_cases small : value < 10
    · refine ⟨value.digitChar, [], Nat.toDigits_of_lt_base small, ?_⟩
      intro zero
      have code := Nat.toNat_digitChar_sub_48_of_lt_ten small
      rw [zero] at code
      exact nonzero code.symm
    · have large : 10 ≤ value := Nat.not_lt.mp small
      obtain ⟨first, rest, digits, other⟩ := ih (value / 10) (by omega) (by omega)
      refine ⟨first, rest ++ [(value % 10).digitChar], ?_, other⟩
      rw [Nat.toDigits_of_base_le (by decide) large, digits, List.cons_append]

/-- Digits that read as the magnitude at an index. A leading zero stands alone. -/
structure Reads (decimal : Decimal) (index : Nat) : Prop where
  digits : ∀ c ∈ decimal.digits, c.isDigit = true
  leading : decimal = ⟨['0'], 1⟩ ∨ ∃ first rest, decimal.digits = first :: rest ∧ first ≠ '0'
  value : readIndex (Json.decimalValue decimal.digits)
    (decimal.point - decimal.digits.length) = index

theorem reads_of_readIndex {value index : Nat} {exponent : Int} (nonzero : index ≠ 0)
    (read : readIndex value exponent = index) :
    Reads ⟨dropTrailingZeros (Nat.toDigits 10 value),
      exponent + (Nat.toDigits 10 value).length⟩ index := by
  obtain ⟨count, split⟩ := dropTrailingZeros_append (Nat.toDigits 10 value)
  have present : value ≠ 0 := by
    rintro rfl
    exact nonzero (read.symm.trans (readIndex_zero exponent))
  refine ⟨?_, .inr ?_, ?_⟩
  · intro c member
    apply Nat.isDigit_of_mem_toDigits (b := 10) (n := value) (by decide) (by decide)
    rw [← split]
    exact List.mem_append_left _ member
  · obtain ⟨first, rest, digits, other⟩ := head_toDigits present
    rw [digits] at split
    cases kept : dropTrailingZeros (first :: rest) with
    | nil =>
      rw [kept, List.nil_append] at split
      cases count with
      | zero => cases split
      | succ count => exact absurd (List.cons.inj split).1.symm other
    | cons head tail =>
      rw [kept, List.cons_append] at split
      obtain ⟨rfl, -⟩ := List.cons.inj split
      exact ⟨head, tail, by rw [digits, kept], other⟩
  · have length := congrArg List.length split
    have digits := congrArg Json.decimalValue split
    rw [Json.decimalValue_zeros, Json.decimalValue_toDigits] at digits
    rw [List.length_append, List.length_replicate] at length
    have point : exponent + (Nat.toDigits 10 value).length -
        (dropTrailingZeros (Nat.toDigits 10 value)).length = exponent + count := by omega
    rw [point, ← readIndex_zeros, digits, read]

def shortestPair (index : Nat) : Nat × Int :=
  ((List.range 17).findSome? fun count =>
    onGrid? index (pointOf (steps index)) (count + 1)).getD (exact index)

theorem shortest_reads (index : Nat) : Reads (shortest index) index := by
  by_cases zero : index = 0
  · subst zero
    refine ⟨?_, .inl rfl, readIndex_zero 0⟩
    intro c member
    rw [List.mem_singleton.mp member]
    rfl
  · have read : readIndex (shortestPair index).1 (shortestPair index).2 = index := by
      cases found : (List.range 17).findSome? fun count =>
          onGrid? index (pointOf (steps index)) (count + 1) with
      | none =>
        rw [shortestPair, found]
        exact readIndex_exact index
      | some pair =>
        obtain ⟨count, -, hit⟩ := List.exists_of_findSome?_eq_some found
        rw [shortestPair, found]
        exact readIndex_of_onGrid hit
    rw [shortest, if_neg zero]
    exact reads_of_readIndex zero read

end Decimal
end BuildRules
