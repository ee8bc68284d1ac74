import BuildRules.Proofs.Policy
import BuildRules.Proofs.Run.Step

namespace BuildRules

def RunOutcome.shown (outcome : RunOutcome) : String := outcome.display.toOption.getD ""

namespace Runner

variable {runner : Runner} {progress : Progress}

/-- The steps of a run, after so many commands and readings. A failed one is the last. -/
def course (runner : Runner) (calls readings : Nat) : List (Stage × Command) → List Step
  | [] => []
  | (stage, command) :: rest =>
    let step := runner.step calls readings stage command
    step :: if (step.outcome runner).status = .success
      then course runner (calls + 1) (readings + 2) rest else []

theorem course_cons (runner : Runner) (calls readings : Nat) (stage : Stage) (command : Command)
    (rest : List (Stage × Command)) :
    runner.course calls readings ((stage, command) :: rest) =
      runner.step calls readings stage command ::
        if ((runner.step calls readings stage command).outcome runner).status = .success
          then runner.course (calls + 1) (readings + 2) rest else [] := rfl

def Step.entry (step : Step) : Stage × Command := (step.stage, step.command)

/-- A course that begins with successes and goes through all that is pending, or breaks off
behind its first failure. -/
theorem course_cases (runner : Runner) (calls readings : Nat) (pending : List (Stage × Command)) :
    ((runner.course calls readings pending).map Step.entry = pending ∧
      ∀ step ∈ runner.course calls readings pending, (step.outcome runner).status = .success) ∨
    ∃ front last, runner.course calls readings pending = front ++ [last] ∧
      (∀ step ∈ front, (step.outcome runner).status = .success) ∧
      (last.outcome runner).status ≠ .success := by
  induction pending generalizing calls readings with
  | nil => exact .inl ⟨rfl, by simp [course]⟩
  | cons entry rest ih =>
    obtain ⟨stage, command⟩ := entry
    rw [course_cons]
    split
    next success =>
      rcases ih (calls + 1) (readings + 2) with ⟨whole, each⟩ | ⟨front, last, shape, each, failed⟩
      · exact .inl ⟨by rw [List.map_cons, whole]; rfl, List.forall_mem_cons.mpr ⟨success, each⟩⟩
      · exact .inr ⟨_ :: front, last, by rw [shape]; rfl,
          List.forall_mem_cons.mpr ⟨success, each⟩, failed⟩
    next failed => exact .inr ⟨[], _, rfl, by simp, failed⟩

theorem course_begins (runner : Runner) (calls readings : Nat)
    (pending : List (Stage × Command)) :
    (runner.course calls readings pending).map Step.entry <+: pending := by
  induction pending generalizing calls readings with
  | nil => exact List.prefix_rfl
  | cons entry rest ih =>
    rw [course_cons, List.map_cons]
    refine (List.cons_prefix_cons).mpr ⟨rfl, ?_⟩
    split
    · exact ih _ _
    · exact List.nil_prefix

/-- Steps of different stages, if those of the run are different. -/
theorem names_of_course {pending : List (Stage × Command)}
    (names : ((pending.map Prod.fst).map Stage.name).Nodup) (runner : Runner)
    (calls readings : Nat) :
    ((runner.course calls readings pending).map (·.stage.name)).Nodup := by
  rw [List.map_map] at names
  have begun := (course_begins runner calls readings pending).sublist
  have distinct := (begun.map fun entry => entry.1.name).nodup names
  rwa [List.map_map] at distinct

/-- The step at an index answers the command of that number and reads the clock twice. -/
theorem course_getElem? {calls readings index : Nat} {pending : List (Stage × Command)}
    {step : Step} (present : (runner.course calls readings pending)[index]? = some step) :
    step = runner.step (calls + index) (readings + 2 * index) step.stage step.command := by
  induction pending generalizing calls readings index with
  | nil => cases present
  | cons entry rest ih =>
    rw [course_cons] at present
    cases index with
    | zero =>
      cases present
      rfl
    | succ index =>
      rw [List.getElem?_cons_succ] at present
      split at present
      next =>
        have later := ih present
        rw [Nat.add_assoc, Nat.add_comm 1, Nat.add_assoc, Nat.add_comm 2] at later
        exact later
      next => cases present

/-- What a run comes to. -/
structure Ending where
  outcome : RunOutcome
  state : RunState
  current : Option Nat

/-- The ending of a run by its steps from an index on. -/
def ending (runner : Runner) (index : Nat) : List Step → Ending
  | [] => ⟨.succeeded, .succeeded, none⟩
  | step :: rest =>
    let outcome := step.outcome runner
    if outcome.status = .success then ending runner (index + 1) rest
    else ⟨.failed step.stage.name (exitInfo outcome), .stageFailed, some index⟩

theorem ending_of_successes (runner : Runner) {steps : List Step}
    (each : ∀ step ∈ steps, (step.outcome runner).status = .success) (index : Nat) :
    runner.ending index steps = ⟨.succeeded, .succeeded, none⟩ := by
  induction steps generalizing index with
  | nil => rfl
  | cons step rest ih =>
    obtain ⟨success, each⟩ := List.forall_mem_cons.mp each
    rw [ending, if_pos success]
    exact ih each _

theorem ending_of_failure (runner : Runner) {front : List Step} {last : Step}
    (each : ∀ step ∈ front, (step.outcome runner).status = .success)
    (failed : (last.outcome runner).status ≠ .success) (index : Nat) :
    runner.ending index (front ++ [last]) =
      ⟨.failed last.stage.name (exitInfo (last.outcome runner)), .stageFailed,
        some (index + front.length)⟩ := by
  induction front generalizing index with
  | nil => rw [List.nil_append, ending, if_neg failed]; rfl
  | cons step rest ih =>
    obtain ⟨success, each⟩ := List.forall_mem_cons.mp each
    rw [List.cons_append, ending, if_pos success]
    rw [ih each, List.length_cons, Nat.add_assoc, Nat.add_comm 1]

theorem ending_terminal (runner : Runner) (index : Nat) (steps : List Step) :
    (runner.ending index steps).state.terminal = true := by
  induction steps generalizing index with
  | nil => rfl
  | cons step rest ih =>
    rw [ending]
    split
    · exact ih _
    · rfl

def moved (runner : Runner) (state : RunState) (current : Option Nat) (progress : Progress) :
    Progress :=
  let place := match current with
    | none => ""
    | some index => "(" ++ toString index ++ ")"
  { progress with
    state, current
    log := progress.log.add (runner.world.logTime progress.commands.length) (label current)
      "DEBUG" ("state -> " ++ state.name ++ place) }

def passed (runner : Runner) : Nat → List Step → Progress → Progress
  | _, [], progress => progress
  | index, step :: rest, progress =>
    passed runner (index + 1) rest (step.after runner (runner.moved .running (some index) progress))

theorem commands_passed (runner : Runner) (index : Nat) (steps : List Step)
    (progress : Progress) :
    (runner.passed index steps progress).commands =
      progress.commands ++ steps.map Step.command := by
  induction steps generalizing index progress with
  | nil => exact (List.append_nil _).symm
  | cons step rest ih =>
    rw [passed, ih, List.map_cons]
    exact List.append_assoc ..

theorem manifest_passed (runner : Runner) (index : Nat) (steps : List Step)
    (progress : Progress) :
    (runner.passed index steps progress).manifest =
      progress.manifest.map fun manifest =>
        steps.foldl (fun manifest step => step.recorded runner manifest) manifest := by
  induction steps generalizing index progress with
  | nil => exact Option.map_id'.symm
  | cons step rest ih =>
    rw [passed, ih]
    exact Option.map_map ..

def outcomeFields (outcome : RunOutcome) : List (String × Value) :=
  [("succeeded", .bool outcome.ok), ("stage", .ofText? outcome.stage?),
    ("reason", outcome.reason?.getD .null)]

def closed (runner : Runner) (outcome : RunOutcome) (progress : Progress) : Progress :=
  { progress with
    log := progress.log.add (runner.world.logTime progress.commands.length) "pipeline"
      (if outcome.ok then "INFO" else "ERROR") outcome.shown
    manifest := progress.manifest.map fun manifest =>
      manifest.withOutcome (runner.world.clock progress.readings) (outcomeFields outcome)
    readings := progress.readings + if progress.manifest.isSome then 1 else 0 }

section Growth

variable (runner : Runner) (progress : Progress)

theorem grows_moved (state : RunState) (current : Option Nat) :
    progress.log.Grows (runner.moved state current progress).log :=
  .add .refl _ _ (by decide) _ _

theorem grows_closed (outcome : RunOutcome) :
    progress.log.Grows (runner.closed outcome progress).log := by
  refine .add .refl _ _ ?_ _ _
  split <;> decide

theorem grows_after (index : Nat) (step : Step) :
    progress.log.Grows (step.after runner (runner.moved .running (some index) progress)).log :=
  (grows_moved runner progress .running (some index)).trans (step.grows_logged runner _ _)

theorem grows_passed (index : Nat) (steps : List Step) :
    progress.log.Grows (runner.passed index steps progress).log := by
  induction steps generalizing index progress with
  | nil => exact .refl
  | cons step rest ih => exact (grows_after runner progress index step).trans (ih _ _)

end Growth

theorem transition_returns (runner : Runner) (progress : Progress) (state : RunState)
    (current : Option Nat) :
    Returns (runner.transition state current) progress ()
      (runner.moved state current progress) := rfl

/-- What a run of these steps leaves behind. -/
structure Leaves (runner : Runner) (before : Progress) (steps : List Step) (result : RunResult)
    (after : Progress) : Prop where
  log : result.stages = steps.map (Step.outcome runner)
  outcome : result.outcome = (runner.ending 0 steps).outcome
  result_state : result.state = after.state
  state : after.state = (runner.ending 0 steps).state
  current : after.current = (runner.ending 0 steps).current
  calls : after.commands = before.commands ++ steps.map Step.command
  manifest : ∃ time, after.manifest = before.manifest.map fun manifest =>
    (steps.foldl (fun manifest step => step.recorded runner manifest) manifest).withOutcome time
      (outcomeFields result.outcome)

def resultOf (runner : Runner) (steps : List Step) : RunResult :=
  ⟨(runner.ending 0 steps).outcome, (runner.ending 0 steps).state, steps.map (Step.outcome runner)⟩

def carried (runner : Runner) (steps : List Step) (progress : Progress) : Progress :=
  runner.closed (runner.ending 0 steps).outcome
    (runner.moved (runner.ending 0 steps).state (runner.ending 0 steps).current
      (runner.passed 0 steps progress))

theorem grows_carried (runner : Runner) (steps : List Step) (progress : Progress) :
    progress.log.Grows (runner.carried steps progress).log :=
  ((grows_passed runner progress 0 steps).trans (grows_moved runner _ _ _)).trans
    (grows_closed runner _ _)

theorem leaves_carried (runner : Runner) (progress : Progress) (steps : List Step) :
    runner.Leaves progress steps (runner.resultOf steps) (runner.carried steps progress) := by
  have manifest := manifest_passed runner 0 steps progress
  exact ⟨rfl, rfl, rfl, rfl, rfl, commands_passed runner 0 steps progress, _,
    (congrArg (Option.map _) manifest).trans (Option.map_map ..)⟩

def vars (runner : Runner) : Entries String String :=
  (runner.policy.command runner.environment runner.directory []).vars

def Prepared (runner : Runner) (stage : Stage) (command : Command) : Prop :=
  ∃ arguments, runner.policy.stageArguments stage = .ok arguments ∧
    command = ⟨runner.policy.toolchain :: arguments, runner.vars, runner.directory⟩

/-- The log with the conflicts of the lints, which a run begins with. -/
def warned (runner : Runner) (progress : Progress) : Progress :=
  { progress with
    log := runner.policy.lints.conflicts.foldl (fun log conflict =>
      log.warn (runner.world.logTime progress.commands.length) "policy" conflict.message)
      progress.log }

theorem grows_warned (runner : Runner) (progress : Progress) :
    progress.log.Grows (runner.warned progress).log :=
  .warnAll .refl _ _ LintPolicy.Conflict.message _

/-- The warnings that a run begins with are seen in the log only. -/
theorem Leaves.of_warned {before after : Progress} {steps : List Step} {result : RunResult}
    (leaves : runner.Leaves (runner.warned before) steps result after) :
    runner.Leaves before steps result after :=
  ⟨leaves.log, leaves.outcome, leaves.result_state, leaves.state, leaves.current, leaves.calls,
    leaves.manifest⟩

/-- Either every stage is prepared, or those before the first that does not resolve. -/
theorem prepare_cases (runner : Runner) (ordered : List Stage) :
    (∃ pending, runner.prepare ordered = (pending, none) ∧ pending.map Prod.fst = ordered ∧
      ∀ entry ∈ pending, runner.Prepared entry.1 entry.2) ∨
    ∃ pending stage error rest, runner.prepare ordered = (pending, some (stage, error)) ∧
      ordered = pending.map Prod.fst ++ stage :: rest ∧
      (∀ entry ∈ pending, runner.Prepared entry.1 entry.2) ∧
      runner.policy.stageArguments stage = .error error := by
  induction ordered with
  | nil => exact .inl ⟨[], rfl, rfl, by simp⟩
  | cons stage rest ih =>
    rw [prepare]
    cases resolved : runner.policy.stageArguments stage with
    | error error => exact .inr ⟨[], stage, error, rest, rfl, rfl, by simp, resolved⟩
    | ok arguments =>
      have prepared : runner.Prepared stage
          (runner.policy.command runner.environment runner.directory arguments) :=
        ⟨arguments, resolved, rfl⟩
      rcases ih with ⟨pending, split, whole, each⟩ |
        ⟨pending, failing, error, later, split, whole, each, unresolved⟩
      · refine .inl ⟨(stage, _) :: pending, by rw [split], by rw [List.map_cons, whole], ?_⟩
        exact List.forall_mem_cons.mpr ⟨prepared, each⟩
      · refine .inr ⟨(stage, _) :: pending, failing, error, later, by rw [split],
          by rw [List.map_cons, whole, List.cons_append], ?_, unresolved⟩
        exact List.forall_mem_cons.mpr ⟨prepared, each⟩

/-- One stage with commands that differ in their variables and directory only. -/
def SameArguments (entry other : Stage × Command) : Prop :=
  entry.1 = other.1 ∧ entry.2.arguments = other.2.arguments

/-- Runners that resolve stages alike prepare them alike. -/
theorem prepare_sameArguments {runner other : Runner}
    (toolchain : runner.policy.toolchain = other.policy.toolchain)
    (resolved : ∀ stage, runner.policy.stageArguments stage = other.policy.stageArguments stage)
    (stages : List Stage) :
    List.Forall₂ SameArguments (runner.prepare stages).1 (other.prepare stages).1 ∧
      (runner.prepare stages).2 = (other.prepare stages).2 := by
  induction stages with
  | nil => exact ⟨.nil, rfl⟩
  | cons stage rest ih =>
    rw [prepare, prepare, resolved stage]
    cases other.policy.stageArguments stage with
    | error error => exact ⟨.nil, rfl⟩
    | ok arguments => exact ⟨.cons ⟨rfl, congrArg (· :: arguments) toolchain⟩ ih.1, ih.2⟩

theorem exists_prepared {runner other : Runner}
    (toolchain : runner.policy.toolchain = other.policy.toolchain)
    (resolved : ∀ stage, runner.policy.stageArguments stage = other.policy.stageArguments stage)
    {stages : List Stage} {pending : List (Stage × Command)}
    {stopped : Option (Stage × ResolutionError)}
    (prepared : runner.prepare stages = (pending, stopped)) :
    ∃ others, other.prepare stages = (others, stopped) ∧
      List.Forall₂ SameArguments pending others := by
  obtain ⟨parts, same⟩ := prepare_sameArguments toolchain resolved stages
  rw [prepared] at parts same
  exact ⟨_, Prod.ext rfl same.symm, parts⟩

/-- The stages that are run when these are asked for, in order. -/
def Orders (runner : Runner) (requested : Option (List Stage)) (ordered : List Stage) : Prop :=
  match requested with
  | none => ordered = runner.policy.stages
  | some stages => planStages stages = .ok ordered

/-- The stages of a run: those given or those of the policy, in ascending order wherever
stages are given or the policy was loaded. -/
structure Ordered (runner : Runner) (requested : Option (List Stage)) (ordered : List Stage) :
    Prop where
  same : ordered.Perm (requested.getD runner.policy.stages)
  ascending : (requested.isSome ∨
    ∃ check config, Policy.load check config = .ok runner.policy) → Stage.Ascending ordered

theorem ordered_of_orders {requested : Option (List Stage)} {ordered : List Stage}
    (orders : runner.Orders requested ordered) : runner.Ordered requested ordered := by
  cases requested with
  | none =>
    obtain rfl : ordered = runner.policy.stages := orders
    refine ⟨.refl _, ?_⟩
    rintro (given | ⟨check, config, loaded⟩)
    · cases given
    · exact Policy.ascending_of_load loaded
  | some stages =>
    obtain ⟨-, same, ascending⟩ := planStages_eq_ok.mp orders
    exact ⟨same, fun _ => ascending⟩

theorem exists_orders (runner : Runner) {requested : Option (List Stage)}
    (distinct : ∀ stages, requested = some stages → Stage.Distinct stages) :
    ∃ ordered, runner.Orders requested ordered := by
  cases requested with
  | none => exact ⟨_, rfl⟩
  | some stages =>
    obtain ⟨ordered, planned, -⟩ := planStages_of_distinct (distinct stages rfl)
    exact ⟨ordered, planned⟩

def proceed (runner : Runner) (ordered : List Stage) : Running RunResult := do
  let (commands, unresolved) := runner.prepare ordered
  match unresolved with
  | some (stage, error) => runner.failUnresolved commands.length stage error
  | none => runner.runFrom 0 [] commands

/-- A runner that has run does nothing more. -/
theorem run_of_used (used : progress.state ≠ .pending) (requested : Option (List Stage)) :
    (runner.run requested).run.run progress = (.error .alreadyRun, progress) := by
  refine ((Returns.read progress).run_bind _).trans ?_
  dsimp only
  rw [if_pos used]
  rfl

theorem run_of_unplanned {stages : List Stage} {error : PolicyError}
    (fresh : progress.state = .pending) (unplanned : planStages stages = .error error) :
    (runner.run (some stages)).run.run progress = (.error (.plan error), progress) := by
  refine ((Returns.read progress).run_bind _).trans ?_
  dsimp only
  rw [if_neg fun used => used fresh, unplanned]
  rfl

/-- A run of stages in order begins with the conflicts of the lints. -/
theorem run_proceeds {requested : Option (List Stage)} {ordered : List Stage}
    (fresh : progress.state = .pending) (orders : runner.Orders requested ordered) :
    (runner.run requested).run.run progress =
      (runner.proceed ordered).run.run (runner.warned progress) := by
  have warned := warnAll_returns runner progress "policy" LintPolicy.Conflict.message
    runner.policy.lints.conflicts
  refine ((Returns.read progress).run_bind _).trans ?_
  dsimp only
  rw [if_neg fun used => used fresh]
  cases requested with
  | none =>
    obtain rfl : ordered = runner.policy.stages := orders
    exact ((Returns.done _ _).run_bind _).trans (warned.run_bind _)
  | some stages =>
    have planned : planStages stages = .ok ordered := orders
    dsimp only
    rw [planned]
    exact ((Returns.done _ _).run_bind _).trans (warned.run_bind _)

/-- What is known of the end of a run that a stage without arguments ends. -/
def unresolvedInfo (stage : Stage) (error : ResolutionError) : Record :=
  .ofFields [("reason", .text "resolution"), ("returncode", .null),
    ("error", (unresolvedOutcome stage error).errorValue)]

def refused (runner : Runner) (index : Nat) (stage : Stage) (error : ResolutionError)
    (progress : Progress) : Progress :=
  { runner.moved .stageFailed (some index) progress with
    manifest := progress.manifest.map
      (failed (unresolvedOutcome stage error) (runner.world.clock progress.readings))
    readings := progress.readings + 1 }

theorem manifest_refused (runner : Runner) (index : Nat) (stage : Stage)
    (error : ResolutionError) (outcome : RunOutcome) (progress : Progress) :
    (runner.closed outcome (runner.refused index stage error progress)).manifest =
      progress.manifest.map fun manifest =>
        (failed (unresolvedOutcome stage error) (runner.world.clock progress.readings)
          manifest).withOutcome (runner.world.clock (progress.readings + 1))
          (outcomeFields outcome) :=
  Option.map_map ..

end Runner
end BuildRules
