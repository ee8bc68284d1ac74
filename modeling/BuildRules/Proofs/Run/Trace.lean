import BuildRules.Proofs.Run.FirstFailure
import BuildRules.Proofs.Run.Once

namespace BuildRules.Runner

variable {runner : Runner} {progress : Progress}

def stateLine (id : String) (state : RunState) (current : Option Nat) : LogLine :=
  let place := match current with
    | none => ""
    | some index => "(" ++ toString index ++ ")"
  ⟨id, label current, "DEBUG", "state -> " ++ state.name ++ place, []⟩

/-- The transitions of so many stages. -/
def runningLines (id : String) (count : Nat) : List LogLine :=
  (List.range count).map fun index => stateLine id .running (some index)

def startLine (id : String) (outcome : StageOutcome) : LogLine :=
  ⟨id, outcome.name, "INFO", "stage started", .ofFields [("argv", .ofTexts outcome.arguments)]⟩

def finishLine (id : String) (outcome : StageOutcome) : LogLine :=
  ⟨id, outcome.name, "INFO", "stage finished", .ofFields [("returncode", outcome.codeValue)]⟩

/-- The start of a stage, its warnings, and its end if it succeeded. -/
def stageLines (id : String) (outcome : StageOutcome) : List LogLine :=
  startLine id outcome :: outcome.warnings.map (.warning id outcome.name) ++
    if outcome.status = .success then [finishLine id outcome] else []

/-- Stages from an index on, each behind its transition. -/
def courseLines (id : String) : Nat → List StageOutcome → List LogLine
  | _, [] => []
  | index, outcome :: rest =>
    stateLine id .running (some index) :: stageLines id outcome ++ courseLines id (index + 1) rest

def conflictLines (runner : Runner) (id : String) : List LogLine :=
  runner.policy.lints.conflicts.map fun conflict => .warning id "policy" conflict.message

def outcomeLine (id : String) (outcome : RunOutcome) : LogLine :=
  ⟨id, "pipeline", if outcome.ok then "INFO" else "ERROR", outcome.shown, []⟩

section Step

variable (step : Step) (calls : Nat) (log : RunLog)

theorem Step.lines_cautioned (runner : Runner) :
    (step.cautioned runner calls log).lines = log.lines ++
      (step.outcome runner).warnings.map (.warning log.runId (step.outcome runner).name) := by
  rw [(step.reports runner).name]
  exact RunLog.lines_warnAll _ _ _ id _

theorem Step.lines_accounted :
    (step.accounted runner calls log).lines = log.lines ++
      ((step.outcome runner).warnings.map (.warning log.runId (step.outcome runner).name) ++
        if (step.outcome runner).status = .success then [finishLine log.runId (step.outcome runner)]
        else []) := by
  have reports := step.reports runner
  have cautioned := step.lines_cautioned calls log runner
  have sameId := (step.grows_cautioned runner calls log).runId
  rw [accounted]
  cases error : (step.outcome runner).error with
  | none =>
    rw [if_pos (reports.success.mpr error), RunLog.lines_add, cautioned, sameId, finishLine,
      reports.name, List.append_assoc]
  | some payload =>
    have failed : (step.outcome runner).status ≠ .success := by
      rw [ne_eq, reports.success, error]
      exact Option.some_ne_none payload
    rw [if_neg failed, List.append_nil]
    exact cautioned

theorem Step.lines_logged :
    (step.logged runner calls log).lines =
      log.lines ++ stageLines log.runId (step.outcome runner) := by
  have reports := step.reports runner
  have started : (step.announced runner calls log).lines =
      log.lines ++ [startLine log.runId (step.outcome runner)] := by
    rw [announced, RunLog.lines_add, startLine, reports.name, reports.arguments]
  rw [logged, step.lines_accounted, (step.grows_announced runner calls log).runId, started,
    stageLines, List.append_assoc]
  rfl

end Step

section Course

theorem lines_warned (runner : Runner) (progress : Progress) :
    (runner.warned progress).log.lines =
      progress.log.lines ++ runner.conflictLines progress.log.runId :=
  RunLog.lines_warnAll _ _ _ LintPolicy.Conflict.message _

theorem lines_moved (runner : Runner) (state : RunState) (current : Option Nat)
    (progress : Progress) :
    (runner.moved state current progress).log.lines =
      progress.log.lines ++ [stateLine progress.log.runId state current] :=
  RunLog.lines_add ..

theorem lines_closed (runner : Runner) (outcome : RunOutcome) (progress : Progress) :
    (runner.closed outcome progress).log.lines =
      progress.log.lines ++ [outcomeLine progress.log.runId outcome] :=
  RunLog.lines_add ..

theorem lines_passed (runner : Runner) (index : Nat) (steps : List Step) (progress : Progress) :
    (runner.passed index steps progress).log.lines =
      progress.log.lines ++
        courseLines progress.log.runId index (steps.map (Step.outcome runner)) := by
  induction steps generalizing index progress with
  | nil => exact (List.append_nil _).symm
  | cons step rest ih =>
    have stepped : (step.after runner (runner.moved .running (some index) progress)).log.lines =
        progress.log.lines ++ [stateLine progress.log.runId .running (some index)] ++
          stageLines progress.log.runId (step.outcome runner) := by
      refine (step.lines_logged _ _).trans ?_
      rw [lines_moved, (grows_moved runner progress .running (some index)).runId]
    rw [passed, ih, stepped, (grows_after runner progress index step).runId, List.map_cons,
      courseLines]
    simp

theorem grows_refused (runner : Runner) (index : Nat) (stage : Stage) (error : ResolutionError)
    (progress : Progress) : progress.log.Grows (runner.refused index stage error progress).log :=
  grows_moved runner progress .stageFailed (some index)

theorem lines_refused (runner : Runner) (index : Nat) (stage : Stage) (error : ResolutionError)
    (progress : Progress) :
    (runner.refused index stage error progress).log.lines =
      progress.log.lines ++ [stateLine progress.log.runId .stageFailed (some index)] :=
  lines_moved runner .stageFailed (some index) progress

theorem lines_carried (runner : Runner) (steps : List Step) (progress : Progress) :
    (runner.carried steps progress).log.lines =
      progress.log.lines ++
        courseLines progress.log.runId 0 (steps.map (Step.outcome runner)) ++
        [stateLine progress.log.runId (runner.ending 0 steps).state (runner.ending 0 steps).current,
          outcomeLine progress.log.runId (runner.ending 0 steps).outcome] := by
  have passed := grows_passed runner progress 0 steps
  have moved := passed.trans (grows_moved runner (runner.passed 0 steps progress)
    (runner.ending 0 steps).state (runner.ending 0 steps).current)
  rw [carried, lines_closed, moved.runId, lines_moved, passed.runId, lines_passed]
  simp

end Course

section Views

/-- Between its transition and the next a stage changes no state. -/
theorem transitions_stageLines (id : String) (outcome : StageOutcome) :
    (stageLines id outcome).filter LogLine.isTransition = [] := by
  unfold stageLines
  split <;> simp [LogLine.isTransition, LogLine.warning, startLine, finishLine]

theorem transitions_courseLines (id : String) (index : Nat) (outcomes : List StageOutcome) :
    (courseLines id index outcomes).filter LogLine.isTransition =
      (List.range' index outcomes.length).map fun place => stateLine id .running (some place) := by
  induction outcomes generalizing index with
  | nil => rfl
  | cons outcome rest ih =>
    have transition : LogLine.isTransition (stateLine id .running (some index)) = true := rfl
    rw [courseLines, List.cons_append, List.filter_cons_of_pos transition, List.filter_append,
      transitions_stageLines, ih]
    rfl

theorem transitions_conflictLines (runner : Runner) (id : String) :
    (runner.conflictLines id).filter LogLine.isTransition = [] := by
  simp [conflictLines, LogLine.isTransition, LogLine.warning]

theorem warningsOf_stageLines (id name : String) (outcome : StageOutcome) :
    LogLine.warningsOf name (stageLines id outcome) =
      if outcome.name = name then outcome.warnings else [] := by
  have warned := LogLine.warningsOf_warnings id outcome.name name outcome.warnings
  have started : LogLine.warningsOf name [startLine id outcome] = [] := by
    simp [LogLine.warningsOf, LogLine.warns, startLine]
  have finished : LogLine.warningsOf name
      (if outcome.status = .success then [finishLine id outcome] else []) = [] := by
    split <;> simp [LogLine.warningsOf, LogLine.warns, finishLine]
  rw [stageLines, List.cons_append, ← List.singleton_append, LogLine.warningsOf_append,
    LogLine.warningsOf_append, started, finished, warned, List.nil_append, List.append_nil]

/-- What the stages of a name warned of, in order. -/
def warningsAt (name : String) (outcomes : List StageOutcome) : List String :=
  (outcomes.filter fun outcome => outcome.name == name).flatMap StageOutcome.warnings

theorem warningsOf_courseLines (id name : String) (index : Nat) (outcomes : List StageOutcome) :
    LogLine.warningsOf name (courseLines id index outcomes) = warningsAt name outcomes := by
  induction outcomes generalizing index with
  | nil => rfl
  | cons outcome rest ih =>
    have moved : LogLine.warningsOf name [stateLine id .running (some index)] = [] := by
      simp [LogLine.warningsOf, LogLine.warns, stateLine]
    rw [courseLines, List.cons_append, ← List.singleton_append, LogLine.warningsOf_append,
      LogLine.warningsOf_append, moved, warningsOf_stageLines, ih, List.nil_append, warningsAt]
    by_cases same : outcome.name = name
    · simp [warningsAt, same]
    · simp [warningsAt, same]

/-- Messages of the conflicts of the lints, which are warnings of the policy. -/
def conflictsAt (runner : Runner) (name : String) : List String :=
  if name = "policy" then runner.policy.lints.conflicts.map LintPolicy.Conflict.message else []

theorem warningsOf_conflictLines (runner : Runner) (id name : String) :
    LogLine.warningsOf name (runner.conflictLines id) = runner.conflictsAt name := by
  have warned := LogLine.warningsOf_warnings id "policy" name
    (runner.policy.lints.conflicts.map LintPolicy.Conflict.message)
  rw [List.map_map] at warned
  refine warned.trans ?_
  rw [conflictsAt, eq_comm]
  simp only [eq_comm]

end Views

/-- A stage has run: under its name and its ordinal, as the toolchain with its arguments. -/
structure Ran (runner : Runner) (stage : Stage) (outcome : StageOutcome) : Prop where
  name : outcome.name = stage.name
  ordinal : outcome.ordinal = stage.ordinal
  arguments : ∃ arguments, runner.policy.stageArguments stage = .ok arguments ∧
    outcome.arguments = runner.policy.toolchain :: arguments

/-- The stages that ran, and the index at which the run failed if it did. -/
inductive Passage (runner : Runner) (ordered : List Stage) (result : RunResult) :
    List StageOutcome → Option Nat → Prop
  | succeeded (ran : List.Forall₂ runner.Ran ordered result.stages)
      (each : ∀ outcome ∈ result.stages, outcome.status = .success)
      (outcome : result.outcome = .succeeded) (state : result.state = .succeeded) :
      Passage runner ordered result result.stages none
  | failed {front : List StageOutcome} {last : StageOutcome} {begun rest : List Stage}
      (stages : result.stages = front ++ [last]) (split : ordered = begun ++ rest)
      (ran : List.Forall₂ runner.Ran begun (front ++ [last]))
      (each : ∀ outcome ∈ front, outcome.status = .success) (failed : last.status ≠ .success)
      (outcome : result.outcome = .failed last.name (exitInfo last))
      (state : result.state = .stageFailed) :
      Passage runner ordered result (front ++ [last]) (some front.length)
  | unresolved {front rest : List Stage} {stage : Stage} {error : ResolutionError}
      (split : ordered = front ++ stage :: rest)
      (resolved : ∀ earlier ∈ front, ∃ arguments,
        runner.policy.stageArguments earlier = .ok arguments)
      (failed : runner.policy.stageArguments stage = .error error)
      (stages : result.stages = [unresolvedOutcome stage error])
      (outcome : result.outcome = .failed stage.name (unresolvedInfo stage error))
      (state : result.state = .stageFailed) :
      Passage runner ordered result [] (some front.length)

/-- A log that is a trace of the states of a run with this result, event by event. -/
structure Traces (runner : Runner) (id : String) (ordered : List Stage) (result : RunResult)
    (log : RunLog) : Prop where
  events : ∃ ran current, runner.Passage ordered result ran current ∧
    log.lines = runner.conflictLines id ++ courseLines id 0 ran ++
      [stateLine id result.state current, outcomeLine id result.outcome] ∧
    log.transitions = runningLines id ran.length ++ [stateLine id result.state current]
  reasoned : Reasoned result.outcome
  warnings : ∀ name, Entries.find? log.warnings name =
    RunLog.entryOf (runner.conflictsAt name ++ warningsAt name result.stages)

theorem traces_of_lines {id : String} {ordered : List Stage} {result : RunResult} {log : RunLog}
    {ran : List StageOutcome} {current : Option Nat}
    (passage : runner.Passage ordered result ran current) (reasoned : Reasoned result.outcome)
    (grouped : log.Grouped)
    (lines : log.lines = runner.conflictLines id ++ courseLines id 0 ran ++
      [stateLine id result.state current, outcomeLine id result.outcome]) :
    runner.Traces id ordered result log := by
  refine ⟨⟨ran, current, passage, lines, ?_⟩, reasoned, ?_⟩
  · have last : [stateLine id result.state current, outcomeLine id result.outcome].filter
        LogLine.isTransition = [stateLine id result.state current] := by
      cases result.outcome <;> rfl
    rw [RunLog.transitions, lines, List.filter_append, List.filter_append,
      transitions_conflictLines, transitions_courseLines, last, runningLines,
      List.range_eq_range', List.nil_append]
  · intro name
    have last : LogLine.warningsOf name
        [stateLine id result.state current, outcomeLine id result.outcome] = [] := by
      cases result.outcome <;>
        simp [LogLine.warningsOf, LogLine.warns, stateLine, outcomeLine, RunOutcome.ok]
    have same : warningsAt name result.stages = warningsAt name ran := by
      cases passage with
      | succeeded => rfl
      | failed stages => rw [stages]
      | @unresolved front rest stage error split resolved failed stages =>
        rw [stages, warningsAt, warningsAt]
        by_cases named : (unresolvedOutcome stage error).name = name
        · simp [named]
          rfl
        · simp [named]
    rw [grouped name, lines, LogLine.warningsOf_append, LogLine.warningsOf_append,
      warningsOf_conflictLines, warningsOf_courseLines, last, List.append_nil, same]

theorem ran_outcome {step : Step} (prepared : runner.Prepared step.stage step.command) :
    runner.Ran step.stage (step.outcome runner) := by
  have reports := step.reports runner
  obtain ⟨arguments, resolved, command⟩ := prepared
  refine ⟨reports.name, reports.ordinal, arguments, resolved, ?_⟩
  rw [reports.arguments, command]

theorem ran_of_steps {steps : List Step}
    (each : ∀ step ∈ steps, runner.Prepared step.stage step.command) :
    List.Forall₂ runner.Ran (steps.map Step.stage) (steps.map (Step.outcome runner)) := by
  rw [List.forall₂_map_left_iff, List.forall₂_map_right_iff, List.forall₂_same]
  exact fun step member => ran_outcome (each step member)

theorem passage_of_course {pending : List (Stage × Command)}
    (prepared : ∀ entry ∈ pending, runner.Prepared entry.1 entry.2) (calls readings : Nat) :
    runner.Passage (pending.map Prod.fst) (runner.resultOf (runner.course calls readings pending))
      ((runner.course calls readings pending).map (Step.outcome runner))
      (runner.ending 0 (runner.course calls readings pending)).current := by
  have begun := course_begins runner calls readings pending
  have entries (steps : List Step) :
      (steps.map Step.entry).map Prod.fst = steps.map Step.stage := List.map_map
  have ran : List.Forall₂ runner.Ran ((runner.course calls readings pending).map Step.stage)
      ((runner.course calls readings pending).map (Step.outcome runner)) := by
    refine ran_of_steps ?_
    intro step member
    exact prepared step.entry (begun.subset (List.mem_map_of_mem member))
  rcases course_cases runner calls readings pending with
    ⟨whole, each⟩ | ⟨front, last, shape, each, failed⟩
  · have ending := ending_of_successes runner each 0
    rw [← entries, whole] at ran
    rw [ending]
    exact .succeeded ran (List.forall_mem_map.mpr each) (by rw [resultOf, ending])
      (by rw [resultOf, ending])
  · have ending := ending_of_failure runner each failed 0
    obtain ⟨rest, split⟩ := begun
    have parts : pending.map Prod.fst =
        (front ++ [last]).map Step.stage ++ rest.map Prod.fst := by
      rw [← split, shape, List.map_append, entries]
    have outcomes : (front ++ [last]).map (Step.outcome runner) =
        front.map (Step.outcome runner) ++ [last.outcome runner] := List.map_append
    rw [shape, outcomes] at ran
    rw [shape, outcomes, ending, Nat.zero_add,
      ← List.length_map (Step.outcome runner)]
    refine .failed outcomes parts ran (List.forall_mem_map.mpr each) failed ?_ ?_
    · rw [resultOf, ending, (last.reports runner).name]
    · rw [resultOf, ending]

section Run

variable {requested : Option (List Stage)} {id : String} {manifest : Option Manifest}
  {pending : List (Stage × Command)}

theorem traces_carried (manifest : Option Manifest)
    (each : ∀ entry ∈ pending, runner.Prepared entry.1 entry.2) :
    runner.Traces id (pending.map Prod.fst) (runner.resultOf (runner.course 0 0 pending))
      (runner.carried (runner.course 0 0 pending) (runner.warned (.start id manifest))).log := by
  have warned := grows_warned runner (.start id manifest)
  refine traces_of_lines (passage_of_course each _ _) (reasoned_ending runner 0 _)
    ((warned.trans (grows_carried runner _ _)).grouped (RunLog.grouped_empty id)) ?_
  rw [lines_carried, lines_warned, warned.runId]
  rfl

theorem traces_declined {stage : Stage} {error : ResolutionError} (manifest : Option Manifest)
    (rest : List Stage)
    (each : ∀ entry ∈ pending, runner.Prepared entry.1 entry.2)
    (unresolved : runner.policy.stageArguments stage = .error error) :
    runner.Traces id (pending.map Prod.fst ++ stage :: rest) (refusalOf stage error)
      (runner.declined pending.length stage error (runner.warned (.start id manifest))).log := by
  have resolved : ∀ earlier ∈ pending.map Prod.fst, ∃ arguments,
      runner.policy.stageArguments earlier = .ok arguments := by
    intro earlier member
    obtain ⟨entry, present, rfl⟩ := List.mem_map.mp member
    obtain ⟨arguments, given, -⟩ := each entry present
    exact ⟨arguments, given⟩
  have passage : runner.Passage (pending.map Prod.fst ++ stage :: rest) (refusalOf stage error) []
      (some (pending.map Prod.fst).length) := .unresolved rfl resolved unresolved rfl rfl rfl
  rw [List.length_map] at passage
  have warned := grows_warned runner (.start id manifest)
  have moved := warned.trans (grows_refused runner pending.length stage error _)
  refine traces_of_lines passage (reasoned_unresolved stage error)
    ((moved.trans (grows_closed runner _ _)).grouped (RunLog.grouped_empty id)) ?_
  rw [declined, lines_closed, moved.runId, lines_refused, lines_warned, warned.runId]
  simp [courseLines, Progress.start, RunLog.lines, RunLog.empty, refusalOf]

/-- What is logged up to the point at which a run is broken off. -/
theorem BrokenOff.beginning {last after : Progress}
    (broken : BrokenOff (.start id manifest) last after) :
    after.log.events <+: last.log.events ∧ after.log.Grouped :=
  ⟨broken.goes.begins, broken.begins.grouped (RunLog.grouped_empty id)⟩

/-- The log of every run that gives a result is a trace of it: the transitions of the stages that
ran, each with its start, its warnings and, if it succeeded, its end, then the last transition and
the outcome. The warnings kept by stage are the conflicts of the lints, for the policy, and those of
the stage of that name. A run that something keeps from its result is broken off, and then the log
is the beginning of such a trace. -/
theorem run_logs_trace (runner : Runner)
    (distinct : ∀ stages, requested = some stages → Stage.Distinct stages) (id : String)
    (manifest : Option Manifest) :
    ∃ ordered result log, runner.Ordered requested ordered ∧
      runner.Traces id ordered result log ∧
      Ends (runner.run requested) (.start id manifest) fun outcome after =>
        (runner.Unhindered requested (.start id manifest) ∧ outcome = .ok result ∧
          after.log = log) ∨
        (¬ runner.Unhindered requested (.start id manifest) ∧
          (∃ error, error.Midway ∧ outcome = .error error) ∧
          after.log.events <+: log.events ∧ after.log.Grouped) := by
  have fresh : (Progress.start id manifest).state = .pending := rfl
  obtain ⟨ordered, orders⟩ := exists_orders runner distinct
  obtain ⟨-, returns⟩ := run_over runner fresh distinct
  have ordered_ := ordered_of_orders orders
  rcases prepare_cases runner ordered with ⟨pending, prepared, rfl, each⟩ |
    ⟨pending, stage, error, rest, prepared, rfl, each, unresolved⟩
  · refine ⟨_, _, _, ordered_, traces_carried manifest each, ?_⟩
    rcases run_carries fresh orders prepared with ⟨-, ok, last⟩ |
      ⟨error, calls, obstructed, raised, -, broken⟩
    · exact .inl ⟨returns.mp ⟨_, ok⟩, ok, congrArg Progress.log last⟩
    · refine .inr ⟨?_, ⟨error, obstructed.midway, raised⟩, broken.beginning⟩
      intro unhindered
      obtain ⟨result, ok⟩ := returns.mpr unhindered
      rw [raised] at ok
      cases ok
  · refine ⟨_, _, _, ordered_, traces_declined manifest rest each unresolved, ?_⟩
    rcases run_declines fresh orders prepared with ⟨-, ok, last⟩ | ⟨-, fault, raised, -, broken⟩
    · exact .inl ⟨returns.mp ⟨_, ok⟩, ok, congrArg Progress.log last⟩
    · refine .inr ⟨?_, ⟨_, .recording fault, raised⟩, broken.beginning⟩
      intro unhindered
      obtain ⟨result, ok⟩ := returns.mpr unhindered
      rw [raised] at ok
      cases ok

end Run

theorem firstOnly_logs_trace :
    Stage.Distinct [⟨"test", 2, none, ["test"]⟩, ⟨"build", 1, none, ["build"]⟩] ∧
    ∃ ordered result log,
      firstOnly.Ordered (some [⟨"test", 2, none, ["test"]⟩, ⟨"build", 1, none, ["build"]⟩])
        ordered ∧
      firstOnly.Traces "run-1" ordered result log ∧
      Ends (firstOnly.run (some [⟨"test", 2, none, ["test"]⟩, ⟨"build", 1, none, ["build"]⟩]))
        (.start "run-1" (some ⟨[], [], [], [], []⟩)) fun outcome after =>
        outcome = .ok result ∧ after.log = log := by
  have distinct : Stage.Distinct [⟨"test", 2, none, ["test"]⟩, ⟨"build", 1, none, ["build"]⟩] :=
    ⟨by decide, by decide⟩
  have asked : ∀ stages,
      some [⟨"test", 2, none, ["test"]⟩, ⟨"build", 1, none, ["build"]⟩] = some stages →
        Stage.Distinct stages := by
    rintro stages ⟨⟩
    exact distinct
  obtain ⟨ordered, result, log, order, traces, ended⟩ := run_logs_trace firstOnly asked "run-1"
    (some ⟨[], [], [], [], []⟩)
  refine ⟨distinct, ordered, result, log, order, traces, ?_⟩
  rcases ended with ⟨-, ok, same⟩ | ⟨hindered, -⟩
  · exact ⟨ok, same⟩
  · exact absurd (returns_iff_unhindered.mp firstOnly_returns) hindered

theorem Traces.closes {id : String} {ordered : List Stage} {result : RunResult} {log : RunLog}
    (traces : runner.Traces id ordered result log) :
    log.lines.getLast? = some (outcomeLine id result.outcome) := by
  obtain ⟨ran, current, -, lines, -⟩ := traces.events
  rw [lines]
  simp

/-- A run that breaks off in its manifest leaves a stage that is begun, and no last transition. -/
theorem untimed_logs_no_trace :
    ∃ after, Stops (untimed.run none) (.start "run-1" (some ⟨[], [], [], [], []⟩))
        (.recording .outsideCalendar) after ∧
      after.log.lines = [stateLine "run-1" .running (some 0),
        ⟨"run-1", "build", "INFO", "stage started",
          .ofFields [("argv", .ofTexts ["cargo", "build"])]⟩] ∧
      ∀ ordered result, ¬ untimed.Traces "run-1" ordered result after.log := by
  refine ⟨_, rfl, rfl, ?_⟩
  intro ordered result traces
  have stage := congrArg (Option.map LogLine.stage) traces.closes
  have begun : some "build" = some "pipeline" := stage
  exact absurd begun (by decide)

end BuildRules.Runner
