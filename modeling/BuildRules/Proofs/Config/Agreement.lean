import BuildRules.Proofs.Config.Raised
import BuildRules.Proofs.Returns

namespace BuildRules

/-- Both readings fail for faults of one class, or both succeed with related results. -/
inductive Agree {α β : Type} (related : α → β → Prop) :
    Except PolicyError α → Except PolicyError β → Prop where
  | ok {left : α} {right : β} (results : related left right) :
      Agree related (.ok left) (.ok right)
  | error {left right : PolicyError} (alike : left.Alike right) :
      Agree related (.error left) (.error right)

namespace Agree

variable {α β γ δ : Type} {related : α → β → Prop} {final : γ → δ → Prop}
  {left : Except PolicyError α} {right : Except PolicyError β}

theorem refl (reading : Except PolicyError α) : Agree Eq reading reading := by
  cases reading with
  | error error => exact .error (.refl error)
  | ok result => exact .ok rfl

theorem bind {leftNext : α → Except PolicyError γ} {rightNext : β → Except PolicyError δ}
    (first : Agree related left right)
    (rest : ∀ result other, related result other → Agree final (leftNext result) (rightNext other)) :
    Agree final (left >>= leftNext) (right >>= rightNext) := by
  cases first with
  | ok results => exact rest _ _ results
  | error alike => exact .error alike

/-- What is read first is known where the reading goes on. -/
theorem remember (agree : Agree related left right) :
    Agree (fun result other => related result other ∧ left = .ok result) left right := by
  cases agree with
  | ok results => exact .ok ⟨results, rfl⟩
  | error alike => exact .error alike

theorem mapM {items : List γ} {others : List δ} {step : γ → Except PolicyError α}
    {otherStep : δ → Except PolicyError β} (pairs : List.Forall₂ final items others)
    (each : ∀ item other, final item other → Agree related (step item) (otherStep other)) :
    Agree (List.Forall₂ related) (items.mapM step) (others.mapM otherStep) := by
  induction pairs with
  | nil => exact .ok .nil
  | cons pair _ ih =>
    rw [List.mapM_cons, List.mapM_cons]
    refine (each _ _ pair).bind fun result other first => ?_
    exact ih.bind fun results others later => .ok (.cons first later)

theorem mapM_eq {items : List γ} {others : List δ} {step : γ → Except PolicyError α}
    {otherStep : δ → Except PolicyError α} (pairs : List.Forall₂ final items others)
    (each : ∀ item other, final item other → Agree Eq (step item) (otherStep other)) :
    Agree Eq (items.mapM step) (others.mapM otherStep) := by
  have same : List.Forall₂ (Eq (α := α)) = Eq := List.forall₂_eq_eq_eq
  exact same ▸ Agree.mapM pairs each

/-- Readings whose faults are all of one category agree if each succeeds with the other. -/
theorem of_ok {category : ConfigError.Category}
    (leftFaults : ∀ error, left = .error error → error.Of category)
    (rightFaults : ∀ error, right = .error error → error.Of category)
    (forward : ∀ result, left = .ok result → ∃ other, right = .ok other ∧ related result other)
    (backward : ∀ other, right = .ok other → ∃ result, left = .ok result) :
    Agree related left right := by
  cases left with
  | ok result =>
    obtain ⟨other, rfl, results⟩ := forward result rfl
    exact .ok results
  | error error =>
    cases right with
    | ok other =>
      obtain ⟨result, impossible⟩ := backward other rfl
      cases impossible
    | error fault => exact .error ((leftFaults error rfl).alike (rightFaults fault rfl))

end Agree
end BuildRules
