import BuildRules.Proofs.Json.Canonical
import BuildRules.Proofs.Run.Mirror
import BuildRules.Proofs.Value.Sorted
import BuildRules.Report
import Mathlib.Algebra.GroupWithZero.Nat

namespace BuildRules.Report

/-- What the manifest of a run is created with. -/
structure Setting where
  runId : String
  startedAt : Timestamp
  version : String
  identity : String
  environment : Option (List (String × String))
  trigger : Option (List (String × String))

def tableOf (entries : List (String × String)) : Record :=
  entries.map fun entry => (.text entry.1, .text entry.2)

def tableValue : Option (List (String × String)) → Value
  | none => .null
  | some entries => .map (tableOf entries)

namespace Setting

def manifest (setting : Setting) : Except Manifest.Fault Manifest :=
  Manifest.create (.text setting.runId) setting.startedAt (.text setting.version)
    (.text setting.identity) (tableValue setting.environment) (tableValue setting.trigger)

def settings (setting : Setting) : List (String × String) := setting.environment.getD []

def triggered (setting : Setting) : List (String × String) := setting.trigger.getD []

end Setting

def byName (entries : List (String × String)) : List (String × String) :=
  entries.insertionSort fun left right => left.1 ≤ right.1

def reasonOf (info : Record) : String :=
  match Record.get? info "reason" with
  | some (.text reason) => reason
  | _ => unknown

def outcomeText : RunOutcome → List String
  | .succeeded => ["- **Result**: `succeeded`"]
  | .failed stage info =>
    ["- **Result**: `failed`", "- **Failed Stage**: " ++ code stage,
      "- **Reason**: " ++ code (reasonOf info)]

def headText (setting : Setting) : List String :=
  let named (name : String) := code ((Entries.find? setting.triggered name).getD unknown)
  ["- **Run ID**: " ++ code setting.runId,
    "- **Started At (UTC)**: " ++ code setting.startedAt.utcIso] ++
  if setting.triggered.isEmpty then []
  else ["- **Trigger**: " ++ named "event" ++ " on " ++ named "branch"]

def exitOf (outcome : StageOutcome) : String :=
  match outcome.code with
  | none => "-"
  | some code => toString code

def rowText (outcome : StageOutcome) : String :=
  "| " ++ " | ".intercalate [toString outcome.ordinal, outcome.name, outcome.status.name,
    exitOf outcome, toString outcome.milliseconds] ++ " |"

def stagesText (stages : List StageOutcome) : List String :=
  if stages.isEmpty then ["No stages recorded in the Manifest."]
  else
    ["| # | Stage | Status | Exit | Duration (ms) |",
      "|---|-------|--------|------|---------------|"] ++ stages.map rowText

def warningsText (stages : List StageOutcome) : List String :=
  let lines := stages.flatMap fun outcome =>
    outcome.warnings.map fun warning => "- **" ++ outcome.name ++ "**: " ++ warning
  if lines.isEmpty then ["No lint warnings recorded."] else lines

/-- What is said of a failure; the command, if there was one. -/
def failureOf (outcome : StageOutcome) (payload : Payload) : List String :=
  let hint := payload.hint.getD ""
  ["### " ++ outcome.name, "- **Type**: " ++ code payload.code,
    "- **Message**: " ++ payload.message] ++
  (if hint = "" then [] else ["- **Hint**: " ++ hint]) ++
  if outcome.arguments.isEmpty then []
  else ["- **Command**: " ++ code (" ".intercalate outcome.arguments)]

def failureText (result : RunResult) : List String :=
  match result.failedStage? with
  | none => ["No stage failures recorded."]
  | some outcome => (outcome.error.map (failureOf outcome)).getD []

def environmentText (settings : List (String × String)) : List String :=
  if settings.isEmpty then ["No environment overrides recorded."]
  else (byName settings).map fun entry => "- " ++ code (entry.1 ++ "=" ++ entry.2)

/-- Two events for each stage that was started, one for a stage that was not, and one for the
run. -/
def eventTotal (stages : List StageOutcome) : Nat :=
  (stages.map fun outcome => if outcome.arguments.isEmpty then 1 else 2).sum + 1

def runDocument (setting : Setting) : Json :=
  .object <|
    [("buildgate_version", .text setting.version), ("run_id", .text setting.runId),
      ("started_at", .text setting.startedAt.utcIso)] ++
    if setting.triggered.isEmpty then []
    else [("trigger", .object ((byName setting.triggered).map fun entry => (entry.1, .text entry.2)))]

def traceText (setting : Setting) (stages : List StageOutcome) : List String :=
  ["- **Policy Hash**: " ++ code setting.identity,
    "- **BuildGate Version**: " ++ code setting.version,
    "- **Events recorded**: " ++ code (toString (eventTotal stages)),
    "```json", Json.render .indented (runDocument setting), "```"]

def resultText (setting : Setting) (result : RunResult) : String :=
  "\n".intercalate
    (["# CI Report\n", "## Outcome"] ++ outcomeText result.outcome ++ headText setting ++
      ["", "## Stages"] ++ stagesText result.stages ++
      ["", "## Lint Warnings"] ++ warningsText result.stages ++
      ["", "## Failure Details"] ++ failureText result ++
      ["", "## Environment"] ++ environmentText setting.settings ++
      ["", "## Traceability"] ++ traceText setting result.stages) ++ "\n"

end BuildRules.Report
