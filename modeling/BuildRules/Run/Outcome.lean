import BuildRules.Command
import BuildRules.Value.Display

namespace BuildRules

inductive StageStatus where
  | success
  | failed
  | cancelled
deriving DecidableEq

def StageStatus.name : StageStatus → String
  | .success => "success"
  | .failed => "failed"
  | .cancelled => "cancelled"

structure StageOutcome where
  name : String
  ordinal : Int
  arguments : List String
  status : StageStatus
  code : Option Int
  output : String
  diagnostics : String
  milliseconds : Int
  violations : List Violation
  error : Option Payload

/-- Violations that are not fatal, as they are shown. -/
def Violation.warnings (violations : List Violation) : List String :=
  (violations.filter fun violation => !violation.fatal).map
    fun violation => violation.lint ++ ": " ++ violation.message

namespace StageOutcome

/-- Violations that did not fail the stage. -/
def warnings (outcome : StageOutcome) : List String := Violation.warnings outcome.violations

def codeValue (outcome : StageOutcome) : Value :=
  match outcome.code with
  | some code => .int code
  | none => .null

def errorValue (outcome : StageOutcome) : Value :=
  match outcome.error with
  | some payload => .map payload.toRecord
  | none => .null

def toRecord (outcome : StageOutcome) : Record :=
  .ofFields
    [("name", .text outcome.name), ("ordinal", .int outcome.ordinal),
      ("argv", .ofTexts outcome.arguments), ("status", .text outcome.status.name),
      ("returncode", outcome.codeValue), ("duration_ms", .int outcome.milliseconds),
      ("violations", .list (outcome.violations.map fun violation =>
        .ofFields [("lint", .text violation.lint), ("severity", .text violation.severity.name),
          ("message", .text violation.message)])),
      ("error", outcome.errorValue)]

end StageOutcome

inductive RunOutcome where
  | succeeded
  /-- The stage and what is known of its end. -/
  | failed (stage : String) (info : Record)

namespace RunOutcome

def ok : RunOutcome → Bool
  | .succeeded => true
  | .failed .. => false

def stage? : RunOutcome → Option String
  | .succeeded => none
  | .failed stage _ => some stage

def info : RunOutcome → Record
  | .succeeded => []
  | .failed _ info => info

def reason? (outcome : RunOutcome) : Option Value := Record.get? outcome.info "reason"

def display : RunOutcome → Except Value.Fault String
  | .succeeded => .ok "Succeeded"
  | .failed stage info => do
    let reason ← ((Record.get? info "reason").getD (.text "exit")).display
    .ok ("Failed(" ++ Text.quoted stage ++ ", " ++ reason ++ ")")

end RunOutcome

inductive RunState where
  | pending
  | running
  | stageFailed
  | succeeded
deriving DecidableEq

namespace RunState

def name : RunState → String
  | .pending => "pending"
  | .running => "running"
  | .stageFailed => "stage_failed"
  | .succeeded => "succeeded"

def terminal : RunState → Bool
  | .stageFailed | .succeeded => true
  | _ => false

end RunState

structure RunResult where
  outcome : RunOutcome
  state : RunState
  stages : List StageOutcome

namespace RunResult

def failedStage? (result : RunResult) : Option StageOutcome :=
  result.stages.find? fun stage => stage.status != .success

/-- The failure of a run that did not succeed. -/
def failure? (result : RunResult) : Option Failure :=
  match result.outcome with
  | .succeeded => none
  | .failed stage info => some
    ⟨.stage, "Estágio '" ++ stage ++ "' falhou",
      .ofFields [("stage", .text stage), ("exit_info", .map info)],
      some "Consulte o log do estágio; nenhum estágio posterior foi executado."⟩

end RunResult
end BuildRules
