import BuildRules.Proofs.Run.Return

namespace BuildRules.Runner

variable {runner : Runner} {before : Progress} {steps : List Step}

open scoped Classical in
/-- The steps whose commands are started: those up to the first that something breaks off. -/
noncomputable def attempted (runner : Runner) (kept : Bool) : List Step → List Step
  | [] => []
  | step :: rest =>
    if step.Clear runner kept then step :: attempted runner kept rest else step.called kept

section Attempted

variable {kept : Bool} {step : Step}

theorem attempted_cons_of_clear (clear : step.Clear runner kept) :
    runner.attempted kept (step :: steps) = step :: runner.attempted kept steps := if_pos clear

theorem attempted_cons_of_obstacle {error : RunError} (obstacle : step.Obstacle runner kept error) :
    runner.attempted kept (step :: steps) = step.called kept :=
  if_neg fun clear => Step.clear_iff.mp clear error obstacle

theorem attempted_of_clear (clear : ∀ step ∈ steps, step.Clear runner kept) :
    runner.attempted kept steps = steps := by
  induction steps with
  | nil => rfl
  | cons step rest ih =>
    obtain ⟨first, clear⟩ := List.forall_mem_cons.mp clear
    rw [attempted_cons_of_clear first, ih clear]

theorem attempted_append_cons {front back : List Step} {last : Step} {error : RunError}
    (clear : ∀ step ∈ front, step.Clear runner kept) (obstacle : last.Obstacle runner kept error) :
    runner.attempted kept (front ++ last :: back) = front ++ last.called kept := by
  induction front with
  | nil => exact attempted_cons_of_obstacle obstacle
  | cons step rest ih =>
    obtain ⟨first, clear⟩ := List.forall_mem_cons.mp clear
    rw [List.cons_append, attempted_cons_of_clear first, ih clear, List.cons_append]

theorem attempted_append (runner : Runner) (kept : Bool) (front back : List Step) :
    runner.attempted kept front <+: runner.attempted kept (front ++ back) := by
  induction front with
  | nil => exact List.nil_prefix
  | cons step rest ih =>
    rw [List.cons_append, attempted, attempted]
    split
    · exact List.cons_prefix_cons.mpr ⟨rfl, ih⟩
    · exact List.prefix_rfl

/-- A manifest that takes every time of a step does not come into it. -/
theorem clear_of_shown (shown : kept = true → step.started.utc?.isSome ∧ step.finished.utc?.isSome) :
    step.Clear runner kept ↔ step.Clear runner false := by
  constructor
  · rintro ⟨oneKind, told, -, -⟩
    exact ⟨oneKind, told, nofun, nofun⟩
  · rintro ⟨oneKind, told, -, -⟩
    exact ⟨oneKind, told, fun held => (shown held).1, fun held => (shown held).2⟩

theorem attempted_of_shown
    (shown : kept = true → ∀ step ∈ steps, step.started.utc?.isSome ∧ step.finished.utc?.isSome) :
    runner.attempted kept steps = runner.attempted false steps := by
  induction steps with
  | nil => rfl
  | cons step rest ih =>
    have first (held : kept = true) := shown held step List.mem_cons_self
    have later := ih fun held other member => shown held other (List.mem_cons_of_mem step member)
    have same : step.Clear runner kept ↔ step.Clear runner false := clear_of_shown first
    rw [attempted]
    by_cases clear : step.Clear runner kept
    · rw [if_pos clear, later, attempted_cons_of_clear (same.mp clear)]
    · rw [if_neg clear, attempted, if_neg (mt same.mpr clear),
        Step.called_of_shown fun held => (first held).1]
      rfl

end Attempted

theorem Obstructed.calls_eq {error : RunError} {calls : List Command}
    (obstructed : runner.Obstructed before steps error calls) :
    calls = (runner.attempted before.manifest.isSome steps).map Step.command := by
  cases obstructed with
  | step split clear obstacle =>
    subst split
    rw [attempted_append_cons clear obstacle]
  | closing clear => rw [attempted_of_clear clear]

/-- The commands that a run has started by its end, in order. -/
def started (runner : Runner) (requested : Option (List Stage)) (before : Progress) :
    List Command :=
  ((runner.run requested).run.run before).2.commands

section Run

variable {requested : Option (List Stage)} {ordered : List Stage}
  {pending : List (Stage × Command)}

/-- However a run of prepared stages ends, it has started the commands of its course up to the
first that something breaks off. -/
theorem started_of_prepared (fresh : before.state = .pending)
    (orders : runner.Orders requested ordered) (prepared : runner.prepare ordered = (pending, none)) :
    runner.started requested before = before.commands ++
      (runner.attempted before.manifest.isSome
        (runner.course before.commands.length before.readings pending)).map Step.command := by
  rcases run_carries fresh orders prepared with ⟨passable, -, last⟩ |
    ⟨error, calls, obstructed, -, ran, -⟩
  · rw [started, last, attempted_of_clear passable.clear]
    exact (leaves_carried runner (runner.warned before) _).calls
  · rw [started, ran, obstructed.calls_eq]

/-- One of a stage that does not resolve has started nothing. -/
theorem started_of_unprepared {stage : Stage} {error : ResolutionError}
    (fresh : before.state = .pending) (orders : runner.Orders requested ordered)
    (prepared : runner.prepare ordered = (pending, some (stage, error))) :
    runner.started requested before = before.commands := by
  rcases run_declines fresh orders prepared with ⟨-, -, last⟩ | ⟨-, fault, -, ran, -⟩
  · rw [started, last]
    rfl
  · exact ran

theorem started_of_repeated {stages : List Stage} (fresh : before.state = .pending)
    (repeated : ¬ Stage.Distinct stages) :
    runner.started (some stages) before = before.commands := by
  cases planned : planStages stages with
  | error error => rw [started, run_of_unplanned fresh planned]
  | ok ordered => exact absurd (distinct_of_planStages planned) repeated

end Run

end BuildRules.Runner
