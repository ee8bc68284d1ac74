import BuildRules.Proofs.Run.Return

/-! A runner runs once. Of a sequence of calls those before the run are refused for their stages
and those after it because there was one, and no refusal leaves a trace. -/
namespace BuildRules

/-- What a run is broken off by once it has begun. -/
inductive RunError.Midway : RunError → Prop
  | recording (fault : Manifest.Fault) : Midway (.recording fault)
  | mixedReadings : Midway .mixedReadings
  | text (fault : Value.Fault) : Midway (.text fault)

namespace Runner

variable {runner : Runner} {before : Progress} {requested : Option (List Stage)}

theorem Step.Obstacle.midway {step : Step} {kept : Bool} {error : RunError}
    (obstacle : step.Obstacle runner kept error) : error.Midway := by
  cases obstacle with
  | begins => exact .recording _
  | mixed => exact .mixedReadings
  | untold => exact .text _
  | ends => exact .recording _

theorem Obstructed.midway {steps : List Step} {error : RunError} {calls : List Command}
    (obstructed : runner.Obstructed before steps error calls) : error.Midway := by
  cases obstructed with
  | step _ _ obstacle => exact obstacle.midway
  | closing => exact .recording _

inductive Over : Except RunError RunResult → Progress → Prop
  | ended {result : RunResult} {after : Progress} (same : result.state = after.state)
      (terminal : after.state.terminal = true) : Over (.ok result) after
  | broken {error : RunError} {after : Progress} (midway : error.Midway)
      (left : after.state ≠ .pending) : Over (.error error) after

theorem Over.left {outcome : Except RunError RunResult} {after : Progress}
    (past : Over outcome after) : after.state ≠ .pending := by
  cases past with
  | ended same terminal =>
    intro pending
    rw [pending] at terminal
    cases terminal
  | broken midway left => exact left

/-- The run itself, for stages that can be told apart. It gives a result if nothing keeps it from
one. -/
theorem run_over (runner : Runner) (fresh : before.state = .pending)
    (distinct : ∀ stages, requested = some stages → Stage.Distinct stages) :
    Ends (runner.run requested) before fun outcome after => Over outcome after ∧
      ((∃ result, outcome = .ok result) ↔ runner.Unhindered requested before) := by
  have returns : (∃ result, ((runner.run requested).run.run before).1 = .ok result) ↔
      runner.Unhindered requested before := by
    rw [← returns_iff_unhindered]
    constructor
    · rintro ⟨result, ok⟩
      exact ⟨result, _, .of_ok ok⟩
    · rintro ⟨result, after, ran⟩
      exact ⟨result, congrArg Prod.fst ran⟩
  obtain ⟨ordered, orders⟩ := exists_orders runner distinct
  refine ⟨?_, returns⟩
  rcases prepared : runner.prepare ordered with ⟨pending, _ | ⟨stage, error⟩⟩
  · rcases run_carries fresh orders prepared with ⟨-, ok, last⟩ |
      ⟨error, calls, obstructed, raised, -, broken⟩
    · rw [ok, last]
      exact .ended rfl (ending_terminal runner 0 _)
    · rw [raised]
      exact .broken obstructed.midway broken.left
  · rcases run_declines fresh orders prepared with ⟨-, ok, last⟩ | ⟨-, fault, raised, -, broken⟩
    · rw [ok, last]
      exact .ended rfl rfl
    · rw [raised]
      exact .broken (.recording fault) broken.left

def history (runner : Runner) :
    List (Option (List Stage)) → Progress → List (Except RunError RunResult × Progress)
  | [], _ => []
  | requested :: later, before =>
    let ended := (runner.run requested).run.run before
    ended :: runner.history later ended.2

theorem history_of_used {before : Progress} (used : before.state ≠ .pending)
    (calls : List (Option (List Stage))) :
    runner.history calls before = calls.map fun _ => (.error .alreadyRun, before) := by
  induction calls with
  | nil => rfl
  | cons requested later ih =>
    rw [history, run_of_used used]
    exact congrArg _ ih

/-- Outcomes of calls of which the first that is not refused for its stages is the run. -/
inductive Once (runner : Runner) (before : Progress) :
    List (Option (List Stage)) → List (Except RunError RunResult × Progress) → Prop
  | idle : Once runner before [] []
  | refused {stages : List Stage} {error : PolicyError} {later : List (Option (List Stage))}
      {ended : List (Except RunError RunResult × Progress)}
      (repeated : ¬ Stage.Distinct stages) (cause : Stage.Refused stages error)
      (rest : Once runner before later ended) :
      Once runner before (some stages :: later) ((.error (.plan error), before) :: ended)
  | executed {requested : Option (List Stage)} {outcome : Except RunError RunResult}
      {after : Progress} (later : List (Option (List Stage)))
      (distinct : ∀ stages, requested = some stages → Stage.Distinct stages)
      (ran : (runner.run requested).run.run before = (outcome, after)) (past : Over outcome after)
      (returns : (∃ result, outcome = .ok result) ↔ runner.Unhindered requested before) :
      Once runner before (requested :: later)
        ((outcome, after) :: later.map fun _ => (.error .alreadyRun, after))

/-- However often a runner is called, it runs once. -/
theorem history_runs_once {before : Progress} (fresh : before.state = .pending)
    (calls : List (Option (List Stage))) :
    runner.Once before calls (runner.history calls before) := by
  induction calls with
  | nil => exact .idle
  | cons requested later ih =>
    rw [history]
    by_cases distinct : ∀ stages, requested = some stages → Stage.Distinct stages
    · obtain ⟨past, returns⟩ := run_over runner fresh distinct
      rw [history_of_used past.left]
      exact .executed later distinct rfl past returns
    · push Not at distinct
      obtain ⟨stages, rfl, repeated⟩ := distinct
      obtain ⟨error, unplanned, cause⟩ := exists_refusal repeated
      rw [run_of_unplanned fresh unplanned]
      exact .refused repeated cause ih

/-- One stage, under a clock that shows a time that UTC does not have. -/
def untimed : Runner where
  policy := { Policy.bare "cargo" with stages := [⟨"build", 0, none, ["build"]⟩] }
  environment := .empty
  directory := none
  world :=
    { executor := fun _ _ => .ok ⟨0, "", ""⟩
      clock := fun _ => .dawn false (some 3600000000)
      logTime := fun _ => .dawn false (some 0) }

theorem untimed_runs_once : (Progress.start "run-1" (some ⟨[], [], [], [], []⟩)).state = .pending ∧
    untimed.Once (.start "run-1" (some ⟨[], [], [], [], []⟩))
      [some [⟨"build", 0, none, []⟩, ⟨"build", 1, none, []⟩], none, some []]
      (untimed.history [some [⟨"build", 0, none, []⟩, ⟨"build", 1, none, []⟩], none, some []]
        (.start "run-1" (some ⟨[], [], [], [], []⟩))) :=
  ⟨rfl, history_runs_once rfl _⟩

/-- A run that breaks off in its manifest is over in no terminal state. -/
theorem untimed_breaks_off :
    ∃ after, (untimed.history [none] (.start "run-1" (some ⟨[], [], [], [], []⟩))) =
      [(.error (.recording .outsideCalendar), after)] ∧ after.state.terminal = false :=
  ⟨_, rfl, rfl⟩

end Runner
end BuildRules
