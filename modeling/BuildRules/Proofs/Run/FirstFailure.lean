import BuildRules.Proofs.Lint.Scan
import BuildRules.Proofs.Run.Return

namespace BuildRules.Runner

variable {runner : Runner}

/-- An answer that a stage fails for: none at all, an exit code other than zero, or a line that
reports a denied lint. -/
def Breaks (runner : Runner) : Response → Prop
  | .error _ => True
  | .ok result => result.code ≠ 0 ∨
      runner.policy.lints.Denies (result.output ++ "\n" ++ result.diagnostics)

theorem Step.success_iff_not_breaks (runner : Runner) (step : Step) :
    (step.outcome runner).status = .success ↔ ¬ runner.Breaks step.response := by
  rw [(step.reports runner).success, Step.error_eq_none_iff]
  cases answered : step.response with
  | error interruption =>
    rw [Step.failure_of_error answered]
    cases interruptionPayload step.stage step.command.arguments interruption <;>
      simp [Breaks, Except.map]
  | ok result =>
    rw [Step.failure_of_ok answered, verdict_eq_none_iff, Breaks,
      ← LintPolicy.exists_denied_iff]
    simp [violations]

/-- The answer to the command at an index of the run, after earlier ones, fails its stage. -/
def BreaksAt (runner : Runner) (earlier commands : List Command) (index : Nat) : Prop :=
  ∃ command, commands[index]? = some command ∧
    runner.Breaks (runner.world.executor (earlier.length + index) command)

def heading (outcome : StageOutcome) : String × Int × List String :=
  (outcome.name, outcome.ordinal, outcome.arguments)

def headingOf (entry : Stage × Command) : String × Int × List String :=
  (entry.1.name, entry.1.ordinal, entry.2.arguments)

/-- The failure that a result raises names the stage and what is known of its end. -/
def Raises (result : RunResult) (name : String) (info : Record) : Prop :=
  ∃ failure, result.failure? = some failure ∧ failure.kind = .stage ∧
    failure.details = .ofFields [("stage", .text name), ("exit_info", .map info)]

/-- A run whose stages do not all resolve: nothing is started, and the first that does not
resolve is the only one in the log. -/
structure Refused (runner : Runner) (earlier : List Command) (ordered : List Stage)
    (result : RunResult) (after : Progress) (front : List Stage) (stage : Stage)
    (error : ResolutionError) : Prop where
  first : ∃ rest, ordered = front ++ stage :: rest
  resolved : ∀ entry ∈ front, ∃ arguments, runner.policy.stageArguments entry = .ok arguments
  unresolved : runner.policy.stageArguments stage = .error error
  calls : after.commands = earlier
  state : after.state = .stageFailed
  current : after.current = some front.length
  log : result.stages = [unresolvedOutcome stage error]
  outcome : result.outcome = .failed stage.name (unresolvedInfo stage error)
  blamed : result.failedStage? = some (unresolvedOutcome stage error)
  raised : Raises result stage.name (unresolvedInfo stage error)

/-- A run that the answer to the command at an index ended. -/
structure Stopped (runner : Runner) (earlier : List Command) (ordered : List Stage)
    (commands : List Command) (result : RunResult) (after : Progress) (index : Nat)
    (last : StageOutcome) : Prop where
  breaks : runner.BreaksAt earlier commands index
  first : ∀ place < index, ¬ runner.BreaksAt earlier commands place
  calls : after.commands = earlier ++ commands.take (index + 1)
  state : after.state = .stageFailed
  current : after.current = some index
  headings : result.stages.map heading = ((ordered.zip commands).take (index + 1)).map headingOf
  log : ∃ front, result.stages = front ++ [last] ∧ ∀ entry ∈ front, entry.status = .success
  failed : last.status ≠ .success
  outcome : result.outcome = .failed last.name (exitInfo last)
  blamed : result.failedStage? = some last
  raised : Raises result last.name (exitInfo last)

/-- A run that no answer ended. -/
structure Completed (runner : Runner) (earlier : List Command) (ordered : List Stage)
    (commands : List Command) (result : RunResult) (after : Progress) : Prop where
  unbroken : ∀ index, ¬ runner.BreaksAt earlier commands index
  calls : after.commands = earlier ++ commands
  state : after.state = .succeeded
  current : after.current = none
  headings : result.stages.map heading = (ordered.zip commands).map headingOf
  log : ∀ entry ∈ result.stages, entry.status = .success
  outcome : result.outcome = .succeeded
  blamed : result.failedStage? = none
  raised : result.failure? = none

theorem raises_of_failed {result : RunResult} {name : String} {info : Record}
    (outcome : result.outcome = .failed name info) : Raises result name info := by
  refine ⟨_, by rw [RunResult.failure?, outcome], rfl, rfl⟩

theorem failedStage?_of_last {result : RunResult} {front : List StageOutcome}
    {last : StageOutcome} (log : result.stages = front ++ [last])
    (each : ∀ entry ∈ front, entry.status = .success) (failed : last.status ≠ .success) :
    result.failedStage? = some last := by
  have none_before : front.find? (fun entry => entry.status != .success) = none := by
    rw [List.find?_eq_none]
    intro entry member
    simp [each entry member]
  rw [RunResult.failedStage?, log, List.find?_append, none_before]
  simp [failed]

theorem failedStage?_of_successes {result : RunResult}
    (each : ∀ entry ∈ result.stages, entry.status = .success) : result.failedStage? = none := by
  rw [RunResult.failedStage?, List.find?_eq_none]
  intro entry member
  simp [each entry member]

/-- What a run comes to: either a stage does not resolve, or every stage has its command and
these are carried out up to the first that fails. -/
def Conforms (runner : Runner) (earlier : List Command) (ordered : List Stage)
    (result : RunResult) (after : Progress) : Prop :=
  (∃ front stage error, runner.Refused earlier ordered result after front stage error) ∨
  ∃ commands, List.Forall₂ runner.Prepared ordered commands ∧
    ((∃ index last, runner.Stopped earlier ordered commands result after index last) ∨
      runner.Completed earlier ordered commands result after)

theorem forall₂_prepared {pending : List (Stage × Command)}
    (each : ∀ entry ∈ pending, runner.Prepared entry.1 entry.2) :
    List.Forall₂ runner.Prepared (pending.map Prod.fst) (pending.map Prod.snd) := by
  induction pending with
  | nil => exact .nil
  | cons entry rest ih =>
    obtain ⟨first, each⟩ := List.forall_mem_cons.mp each
    exact .cons first (ih each)

section Course

variable {before after : Progress} {pending : List (Stage × Command)} {result : RunResult}

theorem breaksAt_iff_of_step {index : Nat} {step : Step}
    (present : (runner.course before.commands.length before.readings pending)[index]? = some step) :
    runner.BreaksAt before.commands (pending.map Prod.snd) index ↔
      (step.outcome runner).status ≠ .success := by
  have place : (pending.map Prod.snd)[index]? = some step.command := by
    obtain ⟨rest, whole⟩ := course_begins runner before.commands.length before.readings pending
    obtain ⟨within, -⟩ := List.getElem?_eq_some_iff.mp present
    rw [← whole, List.map_append, List.map_map, List.getElem?_append_left (by simpa using within),
      List.getElem?_map, present]
    rfl
  have answered : step.response =
      runner.world.executor (before.commands.length + index) step.command := by
    rw [course_getElem? present]
    rfl
  rw [ne_eq, step.success_iff_not_breaks, not_not, BreaksAt, place, answered]
  simp

theorem heading_outcome (runner : Runner) (step : Step) :
    heading (step.outcome runner) = headingOf step.entry := by
  have reports := step.reports runner
  rw [heading, reports.name, reports.ordinal, reports.arguments]
  rfl

theorem zip_pending (pending : List (Stage × Command)) :
    (pending.map Prod.fst).zip (pending.map Prod.snd) = pending := by
  induction pending with
  | nil => rfl
  | cons entry rest ih => rw [List.map_cons, List.map_cons, List.zip_cons_cons, ih]

theorem commands_eq (steps : List Step) :
    steps.map Step.command = (steps.map Step.entry).map Prod.snd := by
  rw [List.map_map]
  rfl

theorem headings_of_leaves {steps : List Step} (leaves : runner.Leaves before steps result after) :
    result.stages.map heading = (steps.map Step.entry).map headingOf := by
  rw [leaves.log, List.map_map, List.map_map]
  exact List.map_congr_left fun step _ => heading_outcome runner step

theorem completed_of_leaves
    (leaves : runner.Leaves before
      (runner.course before.commands.length before.readings pending) result after)
    (whole : (runner.course before.commands.length before.readings pending).map Step.entry =
      pending)
    (each : ∀ step ∈ runner.course before.commands.length before.readings pending,
      (step.outcome runner).status = .success) :
    runner.Completed before.commands (pending.map Prod.fst) (pending.map Prod.snd) result after := by
  have ending := ending_of_successes runner each 0
  have successes : ∀ entry ∈ result.stages, entry.status = .success := by
    rw [leaves.log]
    exact List.forall_mem_map.mpr each
  have succeeded : result.outcome = .succeeded := by rw [leaves.outcome, ending]
  refine
    { unbroken := ?_
      calls := ?_
      state := by rw [leaves.state, ending]
      current := by rw [leaves.current, ending]
      headings := by rw [headings_of_leaves leaves, whole, zip_pending]
      log := successes
      outcome := succeeded
      blamed := failedStage?_of_successes successes
      raised := by rw [RunResult.failure?, succeeded] }
  · intro index broken
    obtain ⟨command, present, _⟩ := id broken
    have within := (List.getElem?_eq_some_iff.mp present).1
    have count := congrArg List.length whole
    rw [List.length_map] at within count
    have step := List.getElem?_eq_getElem (count ▸ within)
    exact (breaksAt_iff_of_step step).mp broken (each _ (List.mem_of_getElem? step))
  · rw [leaves.calls, commands_eq, whole]

theorem stopped_of_leaves {front : List Step} {last : Step}
    (leaves : runner.Leaves before
      (runner.course before.commands.length before.readings pending) result after)
    (shape : runner.course before.commands.length before.readings pending = front ++ [last])
    (each : ∀ step ∈ front, (step.outcome runner).status = .success)
    (failed : (last.outcome runner).status ≠ .success) :
    runner.Stopped before.commands (pending.map Prod.fst) (pending.map Prod.snd) result after front.length
      (last.outcome runner) := by
  have ending := ending_of_failure runner each failed 0
  rw [Nat.zero_add, ← shape, ← (last.reports runner).name] at ending
  have count : (front ++ [last]).length = front.length + 1 := List.length_append
  -- the steps taken are those of the first pending stages, none left out
  have taken : pending.take (front.length + 1) = (front ++ [last]).map Step.entry := by
    obtain ⟨rest, whole⟩ := course_begins runner before.commands.length before.readings pending
    rw [← whole, shape, List.take_left' (by rw [List.length_map, count])]
  have log : result.stages = front.map (Step.outcome runner) ++ [last.outcome runner] := by
    rw [leaves.log, shape, List.map_append]
    rfl
  have successes : ∀ entry ∈ front.map (Step.outcome runner), entry.status = .success :=
    List.forall_mem_map.mpr each
  have stopped : result.outcome = .failed (last.outcome runner).name
      (exitInfo (last.outcome runner)) := by rw [leaves.outcome, ending]
  refine
    { breaks := ?_
      first := ?_
      calls := ?_
      state := by rw [leaves.state, ending]
      current := by rw [leaves.current, ending]
      headings := ?_
      log := ⟨_, log, successes⟩
      failed := failed
      outcome := stopped
      blamed := failedStage?_of_last log successes failed
      raised := raises_of_failed stopped }
  · refine (breaksAt_iff_of_step ?_).mpr failed
    rw [shape]
    exact List.getElem?_concat_length
  · intro earlier before_last broken
    have step : (runner.course before.commands.length before.readings pending)[earlier]? =
        some front[earlier] := by
      rw [shape, List.getElem?_append_left before_last, List.getElem?_eq_getElem before_last]
    exact (breaksAt_iff_of_step step).mp broken (each _ (List.getElem_mem before_last))
  · rw [leaves.calls, commands_eq, shape, ← taken, List.map_take]
  · rw [headings_of_leaves leaves, shape, ← taken, zip_pending]

theorem conforms_of_leaves (leaves : runner.Leaves before
      (runner.course before.commands.length before.readings pending) result after)
    (each : ∀ entry ∈ pending, runner.Prepared entry.1 entry.2) :
    runner.Conforms before.commands (pending.map Prod.fst) result after := by
  refine .inr ⟨pending.map Prod.snd, forall₂_prepared each, ?_⟩
  rcases course_cases runner before.commands.length before.readings pending with
    ⟨whole, successes⟩ | ⟨front, last, shape, successes, failed⟩
  · exact .inr (completed_of_leaves leaves whole successes)
  · exact .inl ⟨_, _, stopped_of_leaves leaves shape successes failed⟩

end Course

theorem conforms_of_declined {before : Progress} {pending : List (Stage × Command)} {stage : Stage}
    {error : ResolutionError} (rest : List Stage)
    (each : ∀ entry ∈ pending, runner.Prepared entry.1 entry.2)
    (unresolved : runner.policy.stageArguments stage = .error error) :
    runner.Conforms before.commands (pending.map Prod.fst ++ stage :: rest) (refusalOf stage error)
      (runner.declined pending.length stage error (runner.warned before)) := by
  refine .inl ⟨pending.map Prod.fst, stage, error, ?_⟩
  exact
    { first := ⟨rest, rfl⟩
      resolved := by
        intro entry member
        obtain ⟨pair, present, rfl⟩ := List.mem_map.mp member
        obtain ⟨arguments, resolved, -⟩ := each pair present
        exact ⟨arguments, resolved⟩
      unresolved := unresolved
      calls := rfl
      state := rfl
      current := by rw [List.length_map]; rfl
      log := rfl
      outcome := rfl
      blamed := rfl
      raised := raises_of_failed rfl }

/-- Whatever its executor answers, a run that gives a result has started the commands of its stages
in order up to the first that fails. It gives one unless its runner has run already, its stages
cannot be told apart, or something breaks it off: readings of two kinds, a failure without a text,
or a manifest that does not take what is recorded. -/
theorem run_ends_at_first_failure (runner : Runner) (requested : Option (List Stage))
    (before : Progress) :
    (∀ result after, Returns (runner.run requested) before result after →
      ∃ ordered, runner.Ordered requested ordered ∧ result.state = after.state ∧
        result.state.terminal = true ∧ runner.Conforms before.commands ordered result after) ∧
    ((∃ result after, Returns (runner.run requested) before result after) ↔
      runner.Unhindered requested before) := by
  refine ⟨fun result after ran => ?_, returns_iff_unhindered⟩
  obtain ⟨ordered, orders, returned⟩ := returned_of_returns ran
  refine ⟨ordered, ordered_of_orders orders, ?_⟩
  cases returned with
  | @carried pending split each =>
    have leaves := (leaves_carried runner (runner.warned before)
      (runner.course before.commands.length before.readings pending)).of_warned
    subst split
    exact ⟨rfl, ending_terminal runner 0 _, conforms_of_leaves leaves each⟩
  | @declined pending stage error rest split each unresolved =>
    subst split
    exact ⟨rfl, rfl, conforms_of_declined rest each unresolved⟩

/-- Every command but the first exits with its number, while the clock stands still. -/
def firstOnly : Runner where
  policy := .bare "cargo"
  environment := .empty
  directory := none
  world :=
    { executor := fun call _ => .ok ⟨call, "", ""⟩
      clock := fun _ => .dawn false none
      logTime := fun _ => .dawn false none }

theorem firstOnly_returns : ∃ result after,
    Returns (firstOnly.run (some [⟨"test", 2, none, ["test"]⟩, ⟨"build", 1, none, ["build"]⟩]))
      (.start "run-1" (some ⟨[], [], [], [], []⟩)) result after := by
  have ended : ((firstOnly.run
      (some [⟨"test", 2, none, ["test"]⟩, ⟨"build", 1, none, ["build"]⟩])).run.run
        (.start "run-1" (some ⟨[], [], [], [], []⟩))).1.isOk = true := by decide +kernel
  obtain ⟨result, ok⟩ := exists_of_isOk ended
  exact ⟨result, _, .of_ok ok⟩

/-- A clock that shows its offset from the second reading on. -/
def shifting : Runner :=
  { firstOnly with world :=
      { firstOnly.world with
        clock := fun reading => .dawn false (if reading = 0 then none else some 0) } }

/-- No time passes between two readings of which one has an offset. -/
theorem shifting_breaks_off : Stage.Distinct [⟨"build", 0, none, ["build"]⟩] ∧
    ∃ after, Stops (shifting.run (some [⟨"build", 0, none, ["build"]⟩])) (.start "run-1" none)
      .mixedReadings after ∧ after.state.terminal = false :=
  ⟨⟨by decide, by decide⟩, _, rfl, rfl⟩

end BuildRules.Runner
