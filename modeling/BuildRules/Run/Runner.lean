import BuildRules.Invocation
import BuildRules.Run.Log
import BuildRules.Run.Manifest
import BuildRules.Run.Outcome

/-! The run of a pipeline. All stages are resolved before the first command is started;
then each stage is one command, in order, and the first failure ends the run. -/
namespace BuildRules

/-- What a run meets outside: answers to its commands and readings of its clock. -/
structure World where
  executor : Executor
  clock : Nat → Timestamp
  /-- The time at which events are logged after so many commands. -/
  logTime : Nat → Timestamp

/-- What stays the same for a runner. -/
structure Runner where
  policy : Policy
  environment : Environment
  directory : Option String
  world : World

/-- How far a runner has come. -/
structure Progress where
  state : RunState
  current : Option Nat
  log : RunLog
  manifest : Option Manifest
  /-- Commands started, in order. -/
  commands : List Command
  /-- Readings taken from the clock. -/
  readings : Nat

def Progress.start (runId : String) (manifest : Option Manifest) : Progress :=
  ⟨.pending, none, .empty runId, manifest, [], 0⟩

inductive RunError where
  /-- Stages that cannot be planned. -/
  | plan (error : PolicyError)
  /-- A runner runs once. -/
  | alreadyRun
  | recording (fault : Manifest.Fault)
  /-- No time passes between a reading with an offset and one without. -/
  | mixedReadings
  /-- What came of a command has no text. -/
  | text (fault : Value.Fault)

namespace Runner

abbrev Running := ExceptT RunError (StateM Progress)

def readClock (runner : Runner) : Running Timestamp := do
  let progress ← get
  set { progress with readings := progress.readings + 1 }
  return runner.world.clock progress.readings

def log (runner : Runner) (stage level message : String) (extra : Record := []) :
    Running Unit :=
  modify fun progress =>
    let time := runner.world.logTime progress.commands.length
    { progress with log := progress.log.add time stage level message extra }

def warn (runner : Runner) (stage message : String) : Running Unit :=
  modify fun progress =>
    let time := runner.world.logTime progress.commands.length
    { progress with log := progress.log.warn time stage message }

/-- Record in the manifest, if there is one. -/
def record (recording : Manifest.Recording Unit) : Running Unit := do
  let progress ← get
  match progress.manifest with
  | none => return
  | some manifest =>
    let (result, changed) := (recording.run).run manifest
    set { progress with manifest := some changed }
    match result with
    | .ok () => return
    | .error fault => throw (.recording fault)

def start (runner : Runner) (command : Command) : Running Response := do
  let progress ← get
  set { progress with commands := progress.commands ++ [command] }
  return runner.world.executor progress.commands.length command

def label : Option Nat → String
  | none => "pipeline"
  | some index => "#" ++ toString index

def transition (runner : Runner) (state : RunState) (current : Option Nat) : Running Unit := do
  modify fun progress => { progress with state, current }
  let place := match current with
    | none => ""
    | some index => "(" ++ toString index ++ ")"
  runner.log (label current) "DEBUG" ("state -> " ++ state.name ++ place)

/-- The payload of an alias that does not resolve; its stage is added to the details. -/
def resolutionPayload (stage : Stage) (error : ResolutionError) : Payload :=
  let code := match error with
    | .unknown .. => "ALIAS_UNKNOWN"
    | .cyclic .. => "ALIAS_CYCLE"
    | .tooDeep .. => "ALIAS_DEPTH_EXCEEDED"
  ⟨code, error.message, Entries.insert error.details (.text "stage") (.text stage.name),
    some error.hint⟩

/-- The payload of an interruption. Details of a failure are laid over the stage. -/
def interruptionPayload (stage : Stage) (arguments : List String) :
    Interruption → Except Value.Fault Payload
  | .failure failure =>
    if failure.kind = .cancelled then .ok (.stageCancelled stage.name arguments)
    else if failure.kind = .launch then do
      let reason ←
        ((Record.get? failure.details "reason").getD (.text failure.message)).display
      .ok (.stageLaunch stage.name arguments reason)
    else
      .ok ⟨failure.kind.code, failure.message,
        Entries.update (Record.ofFields [("stage", .text stage.name)]) failure.details,
        failure.hint⟩
  | .foreign kind message => do
    let shown ← message
    .ok ⟨"RUNNER_EXECUTION_ERROR",
      if shown == "" then "Erro inesperado durante execução do estágio" else shown,
      .ofFields [("stage", .text stage.name), ("exception_class", .text kind)],
      some "Verifique o log da run e o executor configurado"⟩

/-- Commands of the stages up to the first that does not resolve, and that one. -/
def prepare (runner : Runner) :
    List Stage → List (Stage × Command) × Option (Stage × ResolutionError)
  | [] => ([], none)
  | stage :: rest =>
    match runner.policy.stageArguments stage with
    | .error error => ([], some (stage, error))
    | .ok arguments =>
      let command := runner.policy.command runner.environment runner.directory arguments
      let (commands, unresolved) := prepare runner rest
      ((stage, command) :: commands, unresolved)

def recordFailure (outcome : StageOutcome) (time : Timestamp) : Running Unit :=
  match outcome.error with
  | none => return
  | some payload =>
    record (Manifest.stageFailed (.text outcome.name) time (.text outcome.status.name)
      (.map payload.toRecord) outcome.codeValue (.ofTexts outcome.warnings)
      (.int outcome.ordinal))

/-- Milliseconds between two readings of one kind. -/
def span (started finished : Timestamp) : Except RunError Int :=
  if started.offset.isSome = finished.offset.isSome then
    .ok (Time.milliseconds (finished.instant - started.instant))
  else .error .mixedReadings

def statusAfter : Interruption → StageStatus
  | .failure failure => if failure.kind = .cancelled then .cancelled else .failed
  | .foreign .. => .failed

def interrupted (stage : Stage) (arguments : List String) (milliseconds : Int)
    (interruption : Interruption) (payload : Payload) : StageOutcome :=
  ⟨stage.name, stage.ordinal, arguments, statusAfter interruption, none, "", "", milliseconds, [],
    some payload⟩

def violations (runner : Runner) (result : CommandResult) : List Violation :=
  runner.policy.lints.scan (result.output ++ "\n" ++ result.diagnostics)

/-- An exit code other than zero comes before denied lints. -/
def verdict (stage : Stage) (arguments : List String) (result : CommandResult)
    (violations : List Violation) : Except Value.Fault (Option Payload) :=
  let denied := (violations.filter Violation.fatal).map Violation.lint
  if !result.ok then (Payload.stageExit stage.name arguments result.code).map some
  else if denied.isEmpty then .ok none
  else .ok (some (.stageLintDenied stage.name denied))

def completed (runner : Runner) (stage : Stage) (arguments : List String)
    (milliseconds : Int) (result : CommandResult) (error : Option Payload) : StageOutcome :=
  ⟨stage.name, stage.ordinal, arguments, if error.isNone then .success else .failed,
    some result.code, result.output, result.diagnostics, milliseconds, runner.violations result,
    error⟩

/-- The end of a stage whose command was answered. -/
def conclude (runner : Runner) (stage : Stage) (arguments : List String)
    (started finished : Timestamp) : Response → Running StageOutcome
  | .error interruption => do
    let milliseconds ← liftM (span started finished)
    let payload ← liftM ((interruptionPayload stage arguments interruption).mapError RunError.text)
    let outcome := interrupted stage arguments milliseconds interruption payload
    recordFailure outcome finished
    return outcome
  | .ok result => do
    let violations := runner.violations result
    for warning in Violation.warnings violations do
      runner.warn stage.name warning
    let error ← liftM ((verdict stage arguments result violations).mapError RunError.text)
    let milliseconds ← liftM (span started finished)
    let outcome := completed runner stage arguments milliseconds result error
    match outcome.error with
    | none =>
      runner.log stage.name "INFO" "stage finished" (.ofFields [("returncode", .int result.code)])
      record (Manifest.stageFinished (.text stage.name) finished (.int result.code)
        (.ofTexts outcome.warnings))
    | some _ => recordFailure outcome finished
    return outcome

def runStage (runner : Runner) (stage : Stage) (command : Command) : Running StageOutcome := do
  let started ← runner.readClock
  runner.log stage.name "INFO" "stage started"
    (.ofFields [("argv", .ofTexts command.arguments)])
  record (Manifest.stageStarted (.text stage.name) (.int stage.ordinal)
    (.ofTexts command.arguments) started)
  let response ← runner.start command
  let finished ← runner.readClock
  runner.conclude stage command.arguments started finished response

/-- What is known of the end of a failed stage. -/
def exitInfo (outcome : StageOutcome) : Record :=
  let reason := if outcome.status = .cancelled then "cancelled" else "failed"
  .ofFields ([("reason", .text reason), ("returncode", outcome.codeValue)] ++
    (outcome.error.map fun payload => ("error", .map payload.toRecord)).toList)

def finish (runner : Runner) (outcome : RunOutcome) (stages : List StageOutcome) :
    Running RunResult := do
  if (← get).manifest.isSome then
    let time ← runner.readClock
    record (Manifest.recordOutcome time (.ofFields
      [("succeeded", .bool outcome.ok), ("stage", .ofText? outcome.stage?),
        ("reason", outcome.reason?.getD .null)]))
  let shown ← liftM (outcome.display.mapError RunError.text)
  runner.log "pipeline" (if outcome.ok then "INFO" else "ERROR") shown
  return ⟨outcome, (← get).state, stages⟩

/-- Stages from an index on, after those already run. -/
def runFrom (runner : Runner) (index : Nat) (done : List StageOutcome) :
    List (Stage × Command) → Running RunResult
  | [] => do
    runner.transition .succeeded none
    runner.finish .succeeded done
  | (stage, command) :: rest => do
    runner.transition .running (some index)
    let outcome ← runner.runStage stage command
    let done := done ++ [outcome]
    if outcome.status = .success then runFrom runner (index + 1) done rest
    else
      runner.transition .stageFailed (some index)
      runner.finish (.failed stage.name (exitInfo outcome)) done

def unresolvedOutcome (stage : Stage) (error : ResolutionError) : StageOutcome :=
  ⟨stage.name, stage.ordinal, [], .failed, none, "", "", 0, [],
    some (resolutionPayload stage error)⟩

def failUnresolved (runner : Runner) (index : Nat) (stage : Stage)
    (error : ResolutionError) : Running RunResult := do
  let outcome := unresolvedOutcome stage error
  runner.transition .stageFailed (some index)
  recordFailure outcome (← runner.readClock)
  let info : Record := .ofFields [("reason", .text "resolution"), ("returncode", .null),
    ("error", outcome.errorValue)]
  runner.finish (.failed stage.name info) [outcome]

/-- Run the given stages in order of their ordinals, or those of the policy. -/
def run (runner : Runner) (stages : Option (List Stage)) : Running RunResult := do
  if (← get).state ≠ .pending then throw .alreadyRun
  let ordered ← match stages with
    | none => pure runner.policy.stages
    | some stages =>
      match planStages stages with
      | .ok planned => pure planned
      | .error error => throw (.plan error)
  for conflict in runner.policy.lints.conflicts do
    runner.warn "policy" conflict.message
  let (commands, unresolved) := runner.prepare ordered
  match unresolved with
  | some (stage, error) => failUnresolved runner commands.length stage error
  | none => runFrom runner 0 [] commands

end Runner
end BuildRules
