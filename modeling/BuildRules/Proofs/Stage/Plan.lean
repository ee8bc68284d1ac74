import BuildRules.Proofs.Config.Raised
import BuildRules.Stage.Plan
import Mathlib.Data.List.Sort

namespace BuildRules

theorem Sorted.sort_eq_insertionSort {α : Type} (order : α → α → Prop) [DecidableRel order]
    (items : List α) :
    sort (fun left right => decide (order left right)) items = items.insertionSort order := by
  have insert_eq (item : α) (rest : List α) :
      insert (fun left right => decide (order left right)) item rest =
        rest.orderedInsert order item := by
    induction rest with
    | nil => rfl
    | cons head rest ih => simp only [insert, List.orderedInsert, decide_eq_true_eq, ih]
  induction items with
  | nil => rfl
  | cons head rest ih => rw [sort, insert_eq, ih, List.insertionSort_cons]

/-- Stages that can be told apart by name and by ordinal. -/
structure Stage.Distinct (stages : List Stage) : Prop where
  names : (stages.map Stage.name).Nodup
  ordinals : (stages.map Stage.ordinal).Nodup

theorem Stage.Distinct.of_perm {stages others : List Stage} (distinct : Stage.Distinct stages)
    (same : others.Perm stages) : Stage.Distinct others :=
  ⟨(same.map Stage.name).nodup_iff.mpr distinct.names,
    (same.map Stage.ordinal).nodup_iff.mpr distinct.ordinals⟩

/-- Stages in ascending order, each ordinal used once. -/
def Stage.Ascending (stages : List Stage) : Prop :=
  stages.Pairwise fun earlier later => earlier.ordinal < later.ordinal

theorem Stage.Ascending.unique {stages others : List Stage} (ascending : Stage.Ascending stages)
    (otherAscending : Stage.Ascending others) (same : stages.Perm others) : stages = others := by
  refine List.Perm.eq_of_pairwise ?_ ascending otherAscending same
  intro earlier later _ _ below above
  exact absurd above (lt_asymm below)

namespace StageRegistry

private theorem fresh_of_nodup_append {β : Type} [DecidableEq β] {key : Stage → β}
    {front rest : List Stage} {stage : Stage}
    (distinct : ((front ++ stage :: rest).map key).Nodup) :
    ¬ (front.map key).contains (key stage) = true := by
  rw [List.map_append, List.map_cons, List.nodup_append] at distinct
  intro taken
  rw [List.contains_iff_mem] at taken
  exact distinct.2.2 _ taken _ List.mem_cons_self rfl

theorem foldlM_add (registry : StageRegistry) {stages : List Stage}
    (distinct : Stage.Distinct (registry.stages ++ stages)) :
    ∃ result, stages.foldlM add registry = .ok result ∧
      result.stages = registry.stages ++ stages := by
  induction stages generalizing registry with
  | nil => exact ⟨registry, rfl, (List.append_nil _).symm⟩
  | cons stage rest ih =>
    have nameFresh := fresh_of_nodup_append distinct.names
    have ordinalFresh := fresh_of_nodup_append distinct.ordinals
    rw [List.foldlM_cons, add, dif_neg nameFresh, dif_neg ordinalFresh]
    have remaining : (registry.stages ++ [stage]) ++ rest = registry.stages ++ stage :: rest :=
      List.append_assoc ..
    obtain ⟨result, built, kept⟩ := ih ⟨registry.stages ++ [stage], _, _⟩
      (remaining.symm ▸ distinct)
    exact ⟨result, built, kept.trans remaining⟩

theorem stages_of_add {registry next : StageRegistry} {stage : Stage}
    (added : registry.add stage = .ok next) : next.stages = registry.stages ++ [stage] := by
  rw [add] at added
  split at added
  next => cases added
  next =>
    split at added
    next => cases added
    next =>
      cases added
      rfl

theorem stages_of_foldlM_add {registry result : StageRegistry} {stages : List Stage}
    (built : stages.foldlM add registry = .ok result) :
    result.stages = registry.stages ++ stages := by
  induction stages generalizing registry with
  | nil =>
    cases built
    exact (List.append_nil _).symm
  | cons stage rest ih =>
    rw [List.foldlM_cons] at built
    obtain ⟨next, added, built⟩ := bind_eq_ok.mp built
    rw [ih built, stages_of_add added, List.append_assoc]
    rfl

theorem ofList_eq_ok {stages : List Stage} {registry : StageRegistry}
    (built : ofList stages = .ok registry) : registry.stages = stages :=
  stages_of_foldlM_add built

end StageRegistry

private def NotAfter (left right : Stage) : Prop := left.ordinal ≤ right.ordinal

private instance : DecidableRel NotAfter := fun left right =>
  inferInstanceAs (Decidable (left.ordinal ≤ right.ordinal))

private instance : Std.Total NotAfter := ⟨fun left right => Int.le_total left.ordinal right.ordinal⟩

private instance : IsTrans Stage NotAfter := ⟨fun _ _ _ first second => Int.le_trans first second⟩

theorem insertionSort_ascending {stages : List Stage} (distinct : Stage.Distinct stages) :
    Stage.Ascending (stages.insertionSort NotAfter) := by
  have permuted := List.perm_insertionSort NotAfter stages
  have ordinals : ((stages.insertionSort NotAfter).map Stage.ordinal).Nodup :=
    (permuted.map Stage.ordinal).nodup_iff.mpr distinct.ordinals
  have apart := List.pairwise_map.mp ordinals
  refine ((List.pairwise_insertionSort NotAfter stages).and apart).imp ?_
  rintro earlier later ⟨notAfter, different⟩
  exact lt_of_le_of_ne notAfter different

theorem planStages_of_ofList {stages : List Stage} {registry : StageRegistry}
    (built : StageRegistry.ofList stages = .ok registry) :
    planStages stages = .ok (stages.insertionSort NotAfter) := by
  rw [planStages, built, ← Sorted.sort_eq_insertionSort, ← StageRegistry.ofList_eq_ok built]
  rfl

/-- Distinct stages have a plan: the same stages in ascending order. -/
theorem planStages_of_distinct {stages : List Stage} (distinct : Stage.Distinct stages) :
    ∃ ordered, planStages stages = .ok ordered ∧ ordered.Perm stages ∧
      Stage.Ascending ordered := by
  obtain ⟨registry, built, -⟩ := StageRegistry.foldlM_add .empty distinct
  exact ⟨_, planStages_of_ofList built, List.perm_insertionSort NotAfter stages,
    insertionSort_ascending distinct⟩

/-- Only distinct stages have a plan. -/
theorem distinct_of_planStages {stages ordered : List Stage}
    (planned : planStages stages = .ok ordered) : Stage.Distinct stages := by
  obtain ⟨registry, built, -⟩ := bind_eq_ok.mp planned
  rw [← StageRegistry.ofList_eq_ok built]
  exact ⟨registry.namesDistinct, registry.ordinalsDistinct⟩

/-- The plan of distinct stages is their one ascending arrangement, and no other stages have one. -/
theorem planStages_eq_ok {stages ordered : List Stage} :
    planStages stages = .ok ordered ↔
      Stage.Distinct stages ∧ ordered.Perm stages ∧ Stage.Ascending ordered := by
  constructor
  · intro planned
    have distinct := distinct_of_planStages planned
    obtain ⟨other, again, same, ascending⟩ := planStages_of_distinct distinct
    cases planned.symm.trans again
    exact ⟨distinct, same, ascending⟩
  · rintro ⟨distinct, same, ascending⟩
    obtain ⟨other, planned, otherSame, otherAscending⟩ := planStages_of_distinct distinct
    rw [planned, ascending.unique otherAscending (same.trans otherSame.symm)]

theorem ascending_of_planStages {stages ordered : List Stage}
    (planned : planStages stages = .ok ordered) : Stage.Ascending ordered :=
  (planStages_eq_ok.mp planned).2.2

theorem names_of_planStages {stages ordered : List Stage}
    (planned : planStages stages = .ok ordered) : (ordered.map Stage.name).Nodup := by
  obtain ⟨distinct, same, -⟩ := planStages_eq_ok.mp planned
  exact (distinct.of_perm same).names

theorem planStages_of_perm {stages others ordered : List Stage}
    (planned : planStages stages = .ok ordered) (same : others.Perm stages) :
    planStages others = .ok ordered := by
  obtain ⟨distinct, arranged, ascending⟩ := planStages_eq_ok.mp planned
  apply planStages_eq_ok.mpr
  exact ⟨distinct.of_perm same, arranged.trans same.symm, ascending⟩

/-- A plan is planned already. -/
theorem planStages_again {stages ordered : List Stage}
    (planned : planStages stages = .ok ordered) : planStages ordered = .ok ordered :=
  planStages_of_perm planned (planStages_eq_ok.mp planned).2.1

/-- Why stages have no plan. A repeated ordinal that has no text cannot be named. -/
inductive Stage.Refused (stages : List Stage) : PolicyError → Prop where
  | duplicate {error : ConfigError} (category : error.category = .duplicateStage) :
      Refused stages (.config error)
  | unwritten (ordinal : Int) (repeated : 1 < (stages.map Stage.ordinal).count ordinal)
      (long : Number.isShort ordinal = false) : Refused stages (.shape .integerTooLong)

theorem Stage.Refused.of_sublist {stages others : List Stage} {error : PolicyError}
    (refused : Stage.Refused stages error) (kept : stages.Sublist others) :
    Stage.Refused others error := by
  cases refused with
  | duplicate category => exact .duplicate category
  | unwritten ordinal repeated long =>
    exact .unwritten ordinal (Nat.lt_of_lt_of_le repeated ((kept.map Stage.ordinal).count_le _)) long

theorem Stage.Refused.of_perm {stages others : List Stage} {error : PolicyError}
    (refused : Stage.Refused others error) (same : others.Perm stages) :
    Stage.Refused stages error := by
  cases refused with
  | duplicate category => exact .duplicate category
  | unwritten ordinal repeated long =>
    exact .unwritten ordinal ((same.map Stage.ordinal).count_eq _ ▸ repeated) long

theorem StageRegistry.refused_of_add {registry : StageRegistry} {stage : Stage}
    {error : PolicyError} (failed : registry.add stage = .error error) :
    Stage.Refused (registry.stages ++ [stage]) error := by
  rw [add] at failed
  split at failed
  next => cases failed; exact .duplicate rfl
  next =>
    split at failed
    next taken =>
      cases failed
      rcases PolicyError.raised_cases (.stageOrdinalDuplicate stage.ordinal stage.name) with
        ⟨raised, -⟩ | ⟨raised, unnamed⟩
      · rw [raised]
        exact .duplicate rfl
      · have long : Number.isShort stage.ordinal = false := by
          by_contra short
          rw [Bool.not_eq_false] at short
          simp [ConfigError.message, Number.display_eq_ok short] at unnamed
          cases unnamed
        have held := List.count_pos_iff.mpr (List.contains_iff_mem.mp taken)
        rw [raised]
        refine .unwritten stage.ordinal ?_ long
        rw [List.map_append, List.count_append, List.map_singleton, List.count_singleton_self]
        omega
    next => cases failed

/-- Stages without a plan repeat a name or an ordinal, and that is what they are refused for. -/
theorem refused_of_planStages {stages : List Stage} {error : PolicyError}
    (failed : planStages stages = .error error) : Stage.Refused stages error := by
  have listed {registry : StageRegistry} {stages : List Stage}
      (failed : stages.foldlM StageRegistry.add registry = .error error) :
      Stage.Refused (registry.stages ++ stages) error := by
    induction stages generalizing registry with
    | nil => cases failed
    | cons stage rest ih =>
      rw [List.foldlM_cons] at failed
      rcases bind_eq_error.mp failed with first | ⟨next, added, later⟩
      · exact (StageRegistry.refused_of_add first).of_sublist
          ((List.singleton_sublist.mpr List.mem_cons_self).append_left _)
      · have held := ih later
        rwa [StageRegistry.stages_of_add added, List.append_assoc] at held
  rcases bind_eq_error.mp failed with failed | ⟨registry, -, sorted⟩
  · exact listed failed
  · cases sorted

theorem exists_refusal {stages : List Stage} (repeated : ¬ Stage.Distinct stages) :
    ∃ error, planStages stages = .error error ∧ Stage.Refused stages error := by
  cases planned : planStages stages with
  | error error => exact ⟨error, rfl, refused_of_planStages planned⟩
  | ok ordered => exact absurd (distinct_of_planStages planned) repeated

/-- What planning makes of stages. -/
structure Stage.Arranges (stages : List Stage) : Prop where
  succeeds : (∃ ordered, planStages stages = .ok ordered) ↔ Stage.Distinct stages
  refuses : ∀ error, planStages stages = .error error → Stage.Refused stages error
  arrangement : ∀ ordered, planStages stages = .ok ordered ↔
    Stage.Distinct stages ∧ ordered.Perm stages ∧ Stage.Ascending ordered
  again : ∀ ordered, planStages stages = .ok ordered → planStages ordered = .ok ordered

theorem Stage.arranges (stages : List Stage) : Stage.Arranges stages where
  succeeds := by
    constructor
    · rintro ⟨ordered, planned⟩
      exact distinct_of_planStages planned
    · intro distinct
      obtain ⟨ordered, planned, -⟩ := planStages_of_distinct distinct
      exact ⟨ordered, planned⟩
  refuses _ := refused_of_planStages
  arrangement _ := planStages_eq_ok
  again _ := planStages_again

end BuildRules
