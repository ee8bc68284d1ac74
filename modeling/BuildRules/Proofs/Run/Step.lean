import BuildRules.Proofs.Run.Log
import BuildRules.Proofs.Run.Recording
import BuildRules.Proofs.Value.Written
import BuildRules.Run.Runner

namespace BuildRules.Runner

variable {runner : Runner} {progress : Progress}

structure Step where
  stage : Stage
  command : Command
  started : Timestamp
  finished : Timestamp
  response : Response

/-- What comes of an answer has a text: a reason that it gives for a launch that failed, the words
of a foreign exception, and its exit code. -/
def Tells : Response → Prop
  | .error (.failure failure) => failure.kind = .launch → ∃ text,
      ((Record.get? failure.details "reason").getD (.text failure.message)).display = .ok text
  | .error (.foreign _ message) => ∃ text, message = .ok text
  | .ok result => Number.isShort result.code = true

namespace Step

def milliseconds (step : Step) : Int :=
  Time.milliseconds (step.finished.instant - step.started.instant)

/-- The failure of a step, none where it succeeded. One with too long a number has no text. -/
def failure (runner : Runner) (step : Step) : Except Value.Fault (Option Payload) :=
  match step.response with
  | .error interruption =>
    (interruptionPayload step.stage step.command.arguments interruption).map some
  | .ok result => verdict step.stage step.command.arguments result (runner.violations result)

/-- The outcome of a step. One whose failure has no text counts as failed. -/
def outcome (runner : Runner) (step : Step) : StageOutcome :=
  match step.response with
  | .error interruption =>
    interrupted step.stage step.command.arguments step.milliseconds interruption
      ((step.failure runner).toOption.join.getD default)
  | .ok result =>
    completed runner step.stage step.command.arguments step.milliseconds result
      ((step.failure runner).toOption.getD (some default))

/-- The log with the start of a step, before which so many commands were started. -/
def announced (runner : Runner) (step : Step) (calls : Nat) (log : RunLog) : RunLog :=
  log.add (runner.world.logTime calls) step.stage.name "INFO" "stage started"
    (.ofFields [("argv", .ofTexts step.command.arguments)])

def cautioned (runner : Runner) (step : Step) (calls : Nat) (log : RunLog) : RunLog :=
  (step.outcome runner).warnings.foldl
    (fun log warning => log.warn (runner.world.logTime calls) step.stage.name warning) log

/-- The log with the warnings of a step, and with its end if it succeeded. -/
def accounted (runner : Runner) (step : Step) (calls : Nat) (log : RunLog) : RunLog :=
  let cautioned := step.cautioned runner calls log
  match (step.outcome runner).error with
  | none => cautioned.add (runner.world.logTime calls) step.stage.name "INFO" "stage finished"
      (.ofFields [("returncode", (step.outcome runner).codeValue)])
  | some _ => cautioned

def logged (runner : Runner) (step : Step) (calls : Nat) (log : RunLog) : RunLog :=
  step.accounted runner (calls + 1) (step.announced runner calls log)

def begun (step : Step) (manifest : Manifest) : Manifest :=
  manifest.withStart step.stage.name step.stage.ordinal step.command.arguments step.started

/-- The manifest after the end of a step that was begun. -/
def ended (runner : Runner) (step : Step) (manifest : Manifest) : Manifest :=
  let outcome := step.outcome runner
  match outcome.error with
  | none => manifest.withSuccess step.stage.name step.finished outcome.codeValue outcome.warnings
  | some payload => manifest.withFailure step.stage.name step.stage.ordinal step.finished
      outcome.status.name outcome.codeValue outcome.warnings payload.toRecord

def recorded (runner : Runner) (step : Step) (manifest : Manifest) : Manifest :=
  step.ended runner (step.begun manifest)

def concluded (runner : Runner) (step : Step) (progress : Progress) : Progress :=
  { progress with
    log := step.accounted runner progress.commands.length progress.log
    manifest := progress.manifest.map (step.ended runner) }

def after (runner : Runner) (step : Step) (progress : Progress) : Progress :=
  { progress with
    log := step.logged runner progress.commands.length progress.log
    manifest := progress.manifest.map (step.recorded runner)
    commands := progress.commands ++ [step.command]
    readings := progress.readings + 2 }

/-- The readings of a step are of one kind. -/
def OneKind (step : Step) : Prop := step.started.offset.isSome = step.finished.offset.isSome

/-- Nothing breaks the step off, with a manifest or without one. -/
structure Clear (runner : Runner) (kept : Bool) (step : Step) : Prop where
  oneKind : step.OneKind
  told : Tells step.response
  begins : kept = true → step.started.utc?.isSome
  ends : kept = true → step.finished.utc?.isSome

/-- What breaks a step off, and the error of a run that meets it. -/
inductive Obstacle (runner : Runner) (kept : Bool) (step : Step) : RunError → Prop
  | begins (held : kept = true) (hidden : step.started.utc? = none) :
    Obstacle runner kept step (.recording .outsideCalendar)
  | mixed (mixed : ¬ step.OneKind) : Obstacle runner kept step .mixedReadings
  | untold {fault : Value.Fault} (untold : step.failure runner = .error fault) :
    Obstacle runner kept step (.text fault)
  | ends (held : kept = true) (hidden : step.finished.utc? = none) :
    Obstacle runner kept step (.recording .outsideCalendar)

/-- The step, if its command is started: a manifest that does not take the start comes first. -/
def called (kept : Bool) (step : Step) : List Step :=
  if kept && step.started.utc?.isNone then [] else [step]

/-- What is left of a step that is broken off after its command. -/
structure Unfinished (runner : Runner) (step : Step) (before after : Progress) : Prop where
  state : after.state = before.state
  calls : after.commands = before.commands
  begins : before.log.Grows after.log
  goes : after.log.Grows (step.accounted runner before.commands.length before.log)

/-- What a step leaves that is broken off. -/
structure Broken (runner : Runner) (step : Step) (before after : Progress) : Prop where
  state : after.state = before.state
  calls : after.commands =
    before.commands ++ (step.called before.manifest.isSome).map Step.command
  begins : before.log.Grows after.log
  goes : after.log.Grows (step.logged runner before.commands.length before.log)

end Step

/-- The next step of a run, after so many commands and readings. -/
def step (runner : Runner) (calls readings : Nat) (stage : Stage) (command : Command) : Step :=
  ⟨stage, command, runner.world.clock readings, runner.world.clock (readings + 1),
    runner.world.executor calls command⟩

theorem record_returns {recording : Manifest.Recording Unit} {change : Manifest → Manifest}
    (succeeds : ∀ manifest, progress.manifest = some manifest →
      Returns recording manifest () (change manifest)) :
    Returns (record recording) progress ()
      { progress with manifest := progress.manifest.map change } := by
  obtain ⟨state, current, log, manifest, commands, readings⟩ := progress
  refine .andThen (.read _) ?_
  cases manifest with
  | none => exact .done _ _
  | some manifest =>
    have ran := succeeds manifest rfl
    unfold Returns at ran
    dsimp only
    rw [ran]
    exact .andThen (.write _ _) (.done _ _)

theorem record_stops {recording : Manifest.Recording Unit} {manifest changed : Manifest}
    {fault : Manifest.Fault} (held : progress.manifest = some manifest)
    (stopped : Stops recording manifest fault changed) :
    Stops (record recording) progress (.recording fault)
      { progress with manifest := some changed } := by
  obtain ⟨state, current, log, _, commands, readings⟩ := progress
  obtain rfl := held
  unfold Stops at stopped
  refine .following (.read _) ?_
  dsimp only
  rw [stopped]
  exact .following (.write _ _) rfl

theorem readClock_returns (runner : Runner) (progress : Progress) :
    Returns runner.readClock progress (runner.world.clock progress.readings)
      { progress with readings := progress.readings + 1 } := rfl

theorem log_returns (runner : Runner) (progress : Progress) (stage level message : String)
    (extra : Record) :
    Returns (runner.log stage level message extra) progress ()
      { progress with
        log := progress.log.add (runner.world.logTime progress.commands.length) stage level
          message extra } := rfl

theorem start_returns (runner : Runner) (progress : Progress) (command : Command) :
    Returns (runner.start command) progress
      (runner.world.executor progress.commands.length command)
      { progress with commands := progress.commands ++ [command] } := rfl

theorem warn_returns (runner : Runner) (progress : Progress) (stage message : String) :
    Returns (runner.warn stage message) progress ()
      { progress with
        log := progress.log.warn (runner.world.logTime progress.commands.length) stage message } :=
  rfl

/-- Warnings change nothing but the log. -/
theorem warnAll_returns {α : Type} (runner : Runner) (progress : Progress) (stage : String)
    (message : α → String) (items : List α) :
    Returns (forIn items PUnit.unit fun item _ => do
      runner.warn stage (message item)
      pure (ForInStep.yield PUnit.unit)) progress PUnit.unit
      { progress with
        log := items.foldl (fun log item =>
          log.warn (runner.world.logTime progress.commands.length) stage (message item))
          progress.log } := by
  induction items generalizing progress with
  | nil => exact .done _ _
  | cons item rest ih =>
    rw [List.forIn_cons]
    exact .andThen (.andThen (warn_returns runner progress stage (message item)) (.done _ _)) (ih _)

/-- The manifest after a failure, if the outcome is one. -/
def failed (outcome : StageOutcome) (time : Timestamp) (manifest : Manifest) : Manifest :=
  match outcome.error with
  | none => manifest
  | some payload => manifest.withFailure outcome.name outcome.ordinal time outcome.status.name
      outcome.codeValue outcome.warnings payload.toRecord

theorem recordFailure_returns {outcome : StageOutcome} {time : Timestamp}
    (closable : ∀ manifest, progress.manifest = some manifest →
      Manifest.StartReadable (manifest.entryOf outcome.name) ∧ time.utc?.isSome) :
    Returns (recordFailure outcome time) progress ()
      { progress with manifest := progress.manifest.map (failed outcome time) } := by
  rw [recordFailure]
  unfold failed
  cases outcome.error with
  | none =>
    dsimp only
    rw [Option.map_id']
    exact .done _ _
  | some payload =>
    refine record_returns ?_
    intro manifest present
    obtain ⟨readable, shown⟩ := closable manifest present
    exact Manifest.stageFailed_returns readable shown _ _ _ _ _

theorem recordFailure_stops {outcome : StageOutcome} {time : Timestamp} {manifest : Manifest}
    (held : progress.manifest = some manifest) (failed : outcome.error.isSome)
    (unclosable : ¬ (Manifest.StartReadable (manifest.entryOf outcome.name) ∧
      time.utc?.isSome)) :
    ∃ fault changed, (time.utc? = none → fault = .outsideCalendar) ∧
      Stops (recordFailure outcome time) progress (.recording fault)
        { progress with manifest := some changed } := by
  obtain ⟨payload, failed⟩ := Option.isSome_iff_exists.mp failed
  rw [recordFailure, failed]
  obtain ⟨fault, unclosed⟩ := Manifest.exists_unclosed unclosable (.text outcome.status.name)
    outcome.codeValue (.ofTexts outcome.warnings) (.int outcome.ordinal)
  refine ⟨fault, _, ?_, record_stops held (Manifest.stageFailed_stops rfl unclosed)⟩
  intro hidden
  rw [Manifest.closing_of_hidden hidden] at unclosed
  cases unclosed
  rfl

theorem recordStart_returns {stage : Stage} {arguments : List String} {time : Timestamp}
    (shown : progress.manifest.isSome → time.utc?.isSome) :
    Returns (record (Manifest.stageStarted (.text stage.name) (.int stage.ordinal)
      (.ofTexts arguments) time)) progress ()
      { progress with
        manifest := progress.manifest.map fun manifest =>
          manifest.withStart stage.name stage.ordinal arguments time } := by
  refine record_returns ?_
  intro manifest present
  exact Manifest.stageStarted_returns (shown (by rw [present]; rfl)) _ _

theorem recordSuccess_returns {name : String} {time : Timestamp} {code : Value}
    {warnings : List String}
    (closable : ∀ manifest, progress.manifest = some manifest →
      Manifest.StartReadable (manifest.entryOf name) ∧ time.utc?.isSome) :
    Returns (record (Manifest.stageFinished (.text name) time code (.ofTexts warnings)))
      progress ()
      { progress with
        manifest := progress.manifest.map fun manifest =>
          manifest.withSuccess name time code warnings } := by
  refine record_returns ?_
  intro manifest present
  obtain ⟨readable, shown⟩ := closable manifest present
  exact Manifest.stageFinished_returns readable shown _ _

theorem verdict_eq_none_iff {stage : Stage} {arguments : List String} {result : CommandResult}
    {violations : List Violation} :
    verdict stage arguments result violations = .ok none ↔
      result.code = 0 ∧ ∀ violation ∈ violations, violation.severity ≠ .deny := by
  have tolerated : ((violations.filter Violation.fatal).map Violation.lint).isEmpty = true ↔
      ∀ violation ∈ violations, violation.severity ≠ .deny := by
    simp [Violation.fatal]
  rw [← tolerated, verdict]
  by_cases passing : result.code = 0
  · simp [CommandResult.ok, passing]
  · cases Payload.stageExit stage.name arguments result.code <;>
      simp [CommandResult.ok, passing, Except.map]

namespace Step

variable {step : Step} {kept : Bool}

theorem outcome_of_error {interruption : Interruption}
    (answered : step.response = .error interruption) :
    step.outcome runner =
      interrupted step.stage step.command.arguments step.milliseconds interruption
        ((step.failure runner).toOption.join.getD default) := by
  rw [outcome, answered]

theorem outcome_of_ok {result : CommandResult} (answered : step.response = .ok result) :
    step.outcome runner =
      completed runner step.stage step.command.arguments step.milliseconds result
        ((step.failure runner).toOption.getD (some default)) := by
  rw [outcome, answered]

theorem failure_of_error {interruption : Interruption}
    (answered : step.response = .error interruption) : step.failure runner =
      (interruptionPayload step.stage step.command.arguments interruption).map some := by
  rw [failure, answered]

theorem failure_of_ok {result : CommandResult} (answered : step.response = .ok result) :
    step.failure runner =
      verdict step.stage step.command.arguments result (runner.violations result) := by
  rw [failure, answered]

/-- What an outcome takes over from its step. -/
structure Reports (step : Step) (outcome : StageOutcome) : Prop where
  name : outcome.name = step.stage.name
  ordinal : outcome.ordinal = step.stage.ordinal
  arguments : outcome.arguments = step.command.arguments
  milliseconds : outcome.milliseconds = step.milliseconds
  success : outcome.status = .success ↔ outcome.error = none

theorem reports (runner : Runner) (step : Step) : step.Reports (step.outcome runner) := by
  cases answered : step.response with
  | error interruption =>
    rw [outcome_of_error answered]
    refine ⟨rfl, rfl, rfl, rfl, ?_⟩
    have ended : statusAfter interruption ≠ .success := by
      cases interruption with
      | failure failure => rw [statusAfter]; split <;> decide
      | foreign kind message => exact nofun
    simp [interrupted, ended]
  | ok result =>
    rw [outcome_of_ok answered]
    refine ⟨rfl, rfl, rfl, rfl, ?_⟩
    dsimp only [completed]
    cases (step.failure runner).toOption.getD (some default) <;> simp

/-- A step succeeds where nothing can be said of a failure. -/
theorem error_eq_none_iff : (step.outcome runner).error = none ↔
    step.failure runner = .ok none := by
  cases answered : step.response with
  | error interruption =>
    rw [outcome_of_error answered, failure_of_error answered]
    cases interruptionPayload step.stage step.command.arguments interruption <;>
      simp [interrupted, Except.map]
  | ok result =>
    rw [outcome_of_ok answered]
    cases step.failure runner <;> simp [completed, Except.toOption]

/-- The failure of a step, where it has a text, is the error of its outcome. -/
theorem error_of_failure (runner : Runner) {error : Option Payload}
    (told : step.failure runner = .ok error) :
    (step.outcome runner).error = error := by
  cases answered : step.response with
  | error interruption =>
    rw [outcome_of_error answered, told]
    rw [failure_of_error answered] at told
    cases shown : interruptionPayload step.stage step.command.arguments interruption with
    | error fault =>
      rw [shown] at told
      cases told
    | ok payload =>
      rw [shown] at told
      cases told
      rfl
  | ok result =>
    rw [outcome_of_ok answered, told]
    rfl

/-- The failure of a step has a text where its answer has. -/
theorem exists_failure_iff :
    (∃ error, step.failure runner = .ok error) ↔ Tells step.response := by
  cases answered : step.response with
  | error interruption =>
    rw [failure_of_error answered]
    cases interruption with
    | failure failure =>
      rw [interruptionPayload, Tells]
      by_cases cancelled : failure.kind = .cancelled
      · simp [cancelled, Except.map]
      · by_cases launch : failure.kind = .launch
        · rw [if_neg cancelled, if_pos launch]
          simp only [launch, forall_const]
          cases ((Record.get? failure.details "reason").getD (.text failure.message)).display <;>
            simp [bind, Except.bind, Except.map]
        · simp [cancelled, launch, Except.map]
    | foreign kind message =>
      rw [interruptionPayload, Tells]
      cases message <;> simp [bind, Except.bind, Except.map]
  | ok result =>
    rw [failure_of_ok answered, verdict, Tells]
    by_cases passing : result.code = 0
    · simp only [CommandResult.ok, passing, Number.isShort_zero, iff_true]
      split
      next => contradiction
      next => split <;> exact ⟨_, rfl⟩
    · rw [CommandResult.ok, if_pos (by simpa using passing), Payload.stageExit, Number.display]
      by_cases short : Number.isShort result.code = true
      · simp [short, bind, Except.bind, Except.map]
      · simp [short, bind, Except.bind, Except.map]

theorem clear_iff : step.Clear runner kept ↔ ∀ error, ¬ step.Obstacle runner kept error := by
  constructor
  · rintro clear error obstacle
    cases obstacle with
    | begins held hidden =>
      have shown := clear.begins held
      rw [hidden] at shown
      cases shown
    | mixed mixed => exact mixed clear.oneKind
    | untold untold =>
      obtain ⟨error, told⟩ := exists_failure_iff.mpr clear.told
      rw [told] at untold
      cases untold
    | ends held hidden =>
      have shown := clear.ends held
      rw [hidden] at shown
      cases shown
  · intro free
    refine ⟨?_, ?_, ?_, ?_⟩
    · by_contra mixed
      exact free _ (.mixed mixed)
    · cases told : step.failure runner with
      | error fault => exact absurd (.untold told) (free _)
      | ok error => exact exists_failure_iff.mp ⟨error, told⟩
    · intro held
      by_contra hidden
      exact free _ (.begins held (Option.not_isSome_iff_eq_none.mp hidden))
    · intro held
      by_contra hidden
      exact free _ (.ends held (Option.not_isSome_iff_eq_none.mp hidden))

theorem span_eq (oneKind : step.OneKind) :
    span step.started step.finished = .ok step.milliseconds := if_pos oneKind

theorem span_of_mixed (mixed : ¬ step.OneKind) :
    span step.started step.finished = .error .mixedReadings := if_neg mixed

theorem called_of_shown (shown : kept = true → step.started.utc?.isSome) :
    step.called kept = [step] := by
  refine if_neg ?_
  intro hidden
  obtain ⟨held, hidden⟩ := Bool.and_eq_true_iff.mp hidden
  rw [Option.isNone_iff_eq_none.mp hidden] at shown
  cases shown held

theorem called_of_hidden (held : kept = true) (hidden : step.started.utc? = none) :
    step.called kept = [] := by
  rw [called, held, hidden]
  rfl

section Growth

variable (step : Step) (runner : Runner) (calls : Nat) (log : RunLog)

theorem grows_announced : log.Grows (step.announced runner calls log) :=
  .add .refl _ _ (by decide) _ _

theorem grows_cautioned : log.Grows (step.cautioned runner calls log) :=
  .warnAll .refl _ _ id _

theorem grows_ended :
    (step.cautioned runner calls log).Grows (step.accounted runner calls log) := by
  rw [accounted]
  split
  · exact .add .refl _ _ (by decide) _ _
  · exact .refl

theorem grows_accounted : log.Grows (step.accounted runner calls log) :=
  (step.grows_cautioned runner calls log).trans (step.grows_ended runner calls log)

theorem grows_logged : log.Grows (step.logged runner calls log) :=
  (step.grows_announced runner calls log).trans (step.grows_accounted runner _ _)

end Growth

end Step

section Conclusion

variable {step : Step}

/-- The end of a step whose command was answered. -/
def Step.Concludes (runner : Runner) (step : Step) (before : Progress)
    (ended : Except RunError StageOutcome) (after : Progress) : Prop :=
  (step.Clear runner before.manifest.isSome ∧ ended = .ok (step.outcome runner) ∧
    after = step.concluded runner before) ∨
  ∃ error, step.Obstacle runner before.manifest.isSome error ∧ ended = .error error ∧
    step.Unfinished runner before after

/-- What is recorded of a step finds a start that it can read. -/
structure Step.Entered (step : Step) (before : Progress) : Prop where
  begins : before.manifest.isSome = true → step.started.utc?.isSome
  readable : ∀ manifest, before.manifest = some manifest →
    Manifest.StartReadable (manifest.entryOf step.stage.name)

/-- The progress with the warnings of a step. -/
def Step.warned (runner : Runner) (step : Step) (progress : Progress) : Progress :=
  { progress with log := step.cautioned runner progress.commands.length progress.log }

theorem Step.unfinished_warned (runner : Runner) (step : Step) (progress : Progress)
    (manifest : Option Manifest) :
    step.Unfinished runner progress { step.warned runner progress with manifest } :=
  ⟨rfl, rfl, step.grows_cautioned runner _ _, step.grows_ended runner _ _⟩

theorem Step.concluded_of_failure {payload : Payload}
    (failed : (step.outcome runner).error = some payload) (progress : Progress) :
    step.concluded runner progress = { step.warned runner progress with
      manifest := progress.manifest.map (Runner.failed (step.outcome runner) step.finished) } := by
  have reports := step.reports runner
  have closed : step.ended runner = Runner.failed (step.outcome runner) step.finished := by
    funext manifest
    rw [ended, Runner.failed, failed, reports.name, reports.ordinal]
  rw [concluded, accounted, failed, closed]
  rfl

theorem Step.concluded_of_success (passed : (step.outcome runner).error = none)
    (progress : Progress) :
    step.concluded runner progress = { step.warned runner progress with
      log := (step.cautioned runner progress.commands.length progress.log).add
        (runner.world.logTime progress.commands.length) step.stage.name "INFO" "stage finished"
        (.ofFields [("returncode", (step.outcome runner).codeValue)])
      manifest := progress.manifest.map fun manifest => manifest.withSuccess step.stage.name
        step.finished (step.outcome runner).codeValue (step.outcome runner).warnings } := by
  have closed : step.ended runner = fun manifest => manifest.withSuccess step.stage.name
      step.finished (step.outcome runner).codeValue (step.outcome runner).warnings := by
    funext manifest
    rw [ended, passed]
  rw [concluded, accounted, passed, closed]
  rfl

theorem failure_ends {payload : Payload} (entered : step.Entered progress)
    (oneKind : step.OneKind) (told : step.failure runner = .ok (some payload)) :
    Ends (do
      recordFailure (step.outcome runner) step.finished
      return step.outcome runner) (step.warned runner progress)
      (step.Concludes runner progress) := by
  have failed := Step.error_of_failure runner told
  have name := (step.reports runner).name
  by_cases ends : progress.manifest.isSome = true → step.finished.utc?.isSome
  · have closable : ∀ manifest, (step.warned runner progress).manifest = some manifest →
        Manifest.StartReadable (manifest.entryOf (step.outcome runner).name) ∧
          step.finished.utc?.isSome := fun manifest held =>
      ⟨name ▸ entered.readable manifest held, ends (Option.isSome_of_eq_some held)⟩
    refine .of_returns ((recordFailure_returns closable).andThen (.done _ _)) (.inl ⟨?_, rfl, ?_⟩)
    · exact ⟨oneKind, Step.exists_failure_iff.mp ⟨_, told⟩, entered.begins, ends⟩
    · exact (Step.concluded_of_failure failed progress).symm
  · obtain ⟨manifest, present, hidden⟩ := Manifest.exists_hidden ends
    have held := Option.isSome_of_eq_some present
    have held_warned : (step.warned runner progress).manifest = some manifest := present
    obtain ⟨fault, changed, outside, stopped⟩ := recordFailure_stops held_warned
      (Option.isSome_of_eq_some failed) fun closable => by rw [hidden] at closable; cases closable.2
    obtain rfl := outside hidden
    exact .of_stops (.andThen stopped) (.inr ⟨_, .ends held hidden, rfl,
      step.unfinished_warned runner progress _⟩)

theorem success_ends (entered : step.Entered progress) (oneKind : step.OneKind)
    (told : step.failure runner = .ok none) :
    Ends (do
      runner.log step.stage.name "INFO" "stage finished"
        (.ofFields [("returncode", (step.outcome runner).codeValue)])
      record (Manifest.stageFinished (.text step.stage.name) step.finished
        (step.outcome runner).codeValue (.ofTexts (step.outcome runner).warnings))
      return step.outcome runner) (step.warned runner progress)
      (step.Concludes runner progress) := by
  have passed := Step.error_of_failure runner told
  have concluded := Step.concluded_of_success passed progress
  refine .following (log_returns _ _ _ _ _ _) ?_
  by_cases ends : progress.manifest.isSome = true → step.finished.utc?.isSome
  · refine .of_returns (.andThen (recordSuccess_returns fun manifest held => ?_) (.done _ _))
      (.inl ⟨?_, rfl, concluded.symm⟩)
    · exact ⟨entered.readable manifest held, ends (Option.isSome_of_eq_some held)⟩
    · exact ⟨oneKind, Step.exists_failure_iff.mp ⟨_, told⟩, entered.begins, ends⟩
  · obtain ⟨manifest, present, hidden⟩ := Manifest.exists_hidden ends
    have held := Option.isSome_of_eq_some present
    refine .of_stops (.andThen (record_stops present (Manifest.stageFinished_stops hidden _ _)))
      (.inr ⟨_, .ends held hidden, rfl, rfl, rfl, ?_, ?_⟩)
    · exact (step.grows_cautioned runner _ _).add _ _ (by decide) _ _
    · have logged := congrArg Progress.log concluded
      dsimp only [Step.concluded] at logged
      rw [logged]
      exact .refl

theorem interrupted_ends {interruption : Interruption} (runner : Runner)
    (entered : step.Entered progress)
    (answered : step.response = .error interruption) :
    Ends (runner.conclude step.stage step.command.arguments step.started step.finished
      (.error interruption)) progress (step.Concludes runner progress) := by
  have unfinished := step.unfinished_warned runner progress progress.manifest
  have silent : step.warned runner progress = progress := by
    rw [Step.warned, Step.cautioned, Step.outcome_of_error answered]
    rfl
  rw [silent] at unfinished
  by_cases oneKind : step.OneKind
  case neg =>
    exact .of_stops (.andThen (.lift (Step.span_of_mixed oneKind) progress))
      (.inr ⟨_, .mixed oneKind, rfl, unfinished⟩)
  refine .following (.lift (Step.span_eq oneKind) progress) ?_
  have failure : step.failure runner = _ := Step.failure_of_error answered
  cases shown : interruptionPayload step.stage step.command.arguments interruption with
  | error fault =>
    rw [shown] at failure
    exact .of_stops (.andThen (.lift rfl progress)) (.inr ⟨_, .untold failure, rfl, unfinished⟩)
  | ok payload =>
    rw [shown] at failure
    have told : step.failure runner = .ok (some payload) := failure
    have outcome_eq : step.outcome runner = interrupted step.stage step.command.arguments
        step.milliseconds interruption payload := by
      rw [Step.outcome_of_error answered, told]
      rfl
    have ended := failure_ends entered oneKind told
    rw [silent, outcome_eq] at ended
    exact .following (.lift rfl progress) ended

theorem answered_ends {result : CommandResult} (runner : Runner)
    (entered : step.Entered progress)
    (answered : step.response = .ok result) :
    Ends (runner.conclude step.stage step.command.arguments step.started step.finished
      (.ok result)) progress (step.Concludes runner progress) := by
  have unfinished := step.unfinished_warned runner progress progress.manifest
  have failure : step.failure runner = _ := Step.failure_of_ok answered
  have outcome_eq : step.outcome runner = _ := Step.outcome_of_ok answered
  have warned := warnAll_returns runner progress step.stage.name id
    (Violation.warnings (runner.violations result))
  have same : step.warned runner progress = { progress with
      log := (Violation.warnings (runner.violations result)).foldl (fun log warning =>
        log.warn (runner.world.logTime progress.commands.length) step.stage.name (id warning))
        progress.log } := by
    rw [Step.warned, Step.cautioned, outcome_eq]
    rfl
  rw [← same] at warned
  refine .following warned ?_
  cases shown : verdict step.stage step.command.arguments result (runner.violations result) with
  | error fault =>
    rw [shown] at failure
    exact .of_stops (.andThen (.lift rfl _)) (.inr ⟨_, .untold failure, rfl, unfinished⟩)
  | ok error =>
    rw [shown] at failure
    refine .following (.lift rfl _) ?_
    by_cases oneKind : step.OneKind
    case neg =>
      exact .of_stops (.andThen (.lift (Step.span_of_mixed oneKind) _))
        (.inr ⟨_, .mixed oneKind, rfl, unfinished⟩)
    refine .following (.lift (Step.span_eq oneKind) _) ?_
    rw [failure] at outcome_eq
    cases error with
    | none =>
      have ended := success_ends entered oneKind failure
      rw [outcome_eq] at ended
      exact ended
    | some payload =>
      have ended := failure_ends entered oneKind failure
      rw [outcome_eq] at ended
      exact ended

/-- A command that was answered concludes its step. -/
theorem conclude_ends (runner : Runner)
    (entered : step.Entered progress) :
    Ends (runner.conclude step.stage step.command.arguments step.started step.finished
      step.response) progress (step.Concludes runner progress) := by
  cases answered : step.response with
  | error interruption => exact interrupted_ends runner entered answered
  | ok result => exact answered_ends runner entered answered

end Conclusion

/-- A stage is run as its step says, or broken off. -/
theorem runStage_ends {step : Step} {stage : Stage} {command : Command} (before : Progress)
    (next : step = runner.step before.commands.length before.readings stage command) :
    Ends (runner.runStage stage command) before fun ended after =>
      (step.Clear runner before.manifest.isSome ∧ ended = .ok (step.outcome runner) ∧
        after = step.after runner before) ∨
      ∃ error, step.Obstacle runner before.manifest.isSome error ∧ ended = .error error ∧
        step.Broken runner before after := by
  subst next
  set step := runner.step before.commands.length before.readings stage command
  refine .following (readClock_returns _ _) ?_
  refine .following (log_returns _ _ _ _ _ _) ?_
  by_cases begins : before.manifest.isSome = true → step.started.utc?.isSome
  case neg =>
    obtain ⟨manifest, present, hidden⟩ := Manifest.exists_hidden begins
    have held := Option.isSome_of_eq_some present
    refine .of_stops (.andThen (record_stops present (Manifest.stageStarted_stops hidden _ _)))
      (.inr ⟨_, .begins held hidden, rfl, rfl, ?_, step.grows_announced runner _ _,
        step.grows_accounted runner _ _⟩)
    rw [Step.called_of_hidden held hidden]
    exact (List.append_nil _).symm
  refine .following (recordStart_returns begins) ?_
  refine .following (start_returns _ _ _) ?_
  refine .following (readClock_returns _ _) ?_
  -- the end of the stage finds a start it can read, since this call has stored that start itself
  have entered : step.Entered { before with
      log := step.announced runner before.commands.length before.log
      manifest := before.manifest.map step.begun
      commands := before.commands ++ [command]
      readings := before.readings + 2 } := by
    refine ⟨?_, ?_⟩
    · intro held
      rw [Option.isSome_map] at held
      exact begins held
    · intro begun present
      obtain ⟨origin, held, rfl⟩ := Option.map_eq_some_iff.mp present
      exact Manifest.startReadable_withStart (begins (Option.isSome_of_eq_some held)) _ _ _ _
  have ended := conclude_ends runner entered
  have counted : (before.commands ++ [command]).length = before.commands.length + 1 :=
    List.length_append
  refine ended.mono ?_
  rintro outcome after (⟨clear, rfl, rfl⟩ | ⟨error, obstacle, rfl, unfinished⟩)
  · rw [Option.isSome_map] at clear
    refine .inl ⟨clear, rfl, ?_⟩
    rw [Step.concluded, Step.after, Step.logged, ← counted]
    dsimp only
    rw [Option.map_map]
    rfl
  · rw [Option.isSome_map] at obstacle
    refine .inr ⟨error, obstacle, rfl, unfinished.state, ?_, ?_, ?_⟩
    · rw [Step.called_of_shown begins]
      exact unfinished.calls
    · exact (step.grows_announced runner _ _).trans unfinished.begins
    · have goes := unfinished.goes
      rw [counted] at goes
      exact goes

end BuildRules.Runner
