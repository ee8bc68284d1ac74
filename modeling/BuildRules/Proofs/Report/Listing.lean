import BuildRules.Proofs.Report.Sections
import Mathlib.Data.Prod.Lex
import Mathlib.Data.String.Basic

namespace BuildRules.Report

/-- A listed stage with what it is listed by. -/
structure Ranked where
  listed : Listed
  ordinal : Int
  name : String
  ordered : ordinalOf listed.2 = .int ordinal
  named : listed.1 = .text name

def Ranked.rank (ranked : Ranked) : Lex (Int × String) := toLex (ranked.ordinal, ranked.name)

/-- A stage under a text whose ordinal is an integer. -/
def Rankable (listed : Listed) : Prop := ∃ ranked : Ranked, ranked.listed = listed

/-- The first stage may stand before the second one. -/
def NotAfter (first second : Listed) : Prop := listedBefore second first = .ok false

theorem listedBefore_ranked (left right : Ranked) :
    listedBefore left.listed right.listed = .ok (decide (¬ right.rank ≤ left.rank)) := by
  have order : decide (¬ right.rank ≤ left.rank) = decide (left.ordinal < right.ordinal ∨
      left.ordinal = right.ordinal ∧ left.name < right.name) := by
    rw [decide_eq_decide, not_le]
    exact Prod.Lex.toLex_lt_toLex
  rw [order, listedBefore, left.ordered, right.ordered, left.named, right.named]
  by_cases same : left.ordinal = right.ordinal
  · have equal : (Value.int left.ordinal).same (.int right.ordinal) = true := by
      rw [same]
      exact beq_self_eq_true _
    rw [if_pos equal, same]
    simp [Scalar.before]
  · rw [Value.same_int same, if_neg Bool.false_ne_true, Value.before_int]
    simp [same]

theorem notAfter_ranked {left right : Ranked} :
    NotAfter left.listed right.listed ↔ left.rank ≤ right.rank := by
  rw [NotAfter, listedBefore_ranked]
  simp

theorem key_eq_of_notAfter {left right : Listed} (leftRankable : Rankable left)
    (rightRankable : Rankable right) (first : NotAfter left right) (second : NotAfter right left) :
    left.1 = right.1 := by
  obtain ⟨left, rfl⟩ := leftRankable
  obtain ⟨right, rfl⟩ := rightRankable
  have same := le_antisymm (notAfter_ranked.mp first) (notAfter_ranked.mp second)
  have names : left.name = right.name := (Prod.mk.inj (toLex.injective same)).2
  rw [left.named, right.named, names]

theorem exists_sorted {items : List Listed} (rankable : ∀ item ∈ items, Rankable item) :
    ∃ sorted, Sorted.sortChecked listedBefore items = .ok sorted ∧ sorted.Perm items ∧
      sorted.Pairwise NotAfter := by
  obtain ⟨ranked, same⟩ := exists_forall₂ rankable
  have images := List.forall₂_map_right_iff.mpr (same.imp fun _ _ equal => equal.symm)
  rw [List.forall₂_eq_eq_eq] at images
  subst images
  have total : Std.Total fun left right : Ranked => left.rank ≤ right.rank :=
    ⟨fun left right => le_total left.rank right.rank⟩
  have transitive : IsTrans Ranked fun left right => left.rank ≤ right.rank :=
    ⟨fun _ _ _ first second => le_trans first second⟩
  have sorted : Sorted.sortChecked listedBefore (ranked.map Ranked.listed) =
      .ok ((ranked.insertionSort fun left right => left.rank ≤ right.rank).map Ranked.listed) := by
    rw [Sorted.sortChecked_map, Sorted.sortChecked_eq_insertionSort listedBefore_ranked]
    rfl
  refine ⟨_, sorted, (List.perm_insertionSort _ ranked).map _, ?_⟩
  rw [List.pairwise_map]
  exact (List.pairwise_insertionSort _ ranked).imp notAfter_ranked.mpr

/-- There is one such listing of stages with distinct names. -/
theorem sorted_unique {items others : List Listed} (rankable : ∀ item ∈ items, Rankable item)
    (distinct : (items.map Prod.fst).Nodup) (same : items.Perm others)
    (sorted : items.Pairwise NotAfter) (otherSorted : others.Pairwise NotAfter) :
    items = others := by
  refine List.Perm.eq_of_pairwise ?_ sorted otherSorted same
  intro left right member present first second
  have kept := same.mem_iff.mpr present
  have keys := key_eq_of_notAfter (rankable left member) (rankable right kept) first second
  exact List.inj_on_of_nodup_map distinct member kept keys

end BuildRules.Report
