import BuildRules.Json.Render
import BuildRules.Value.Display

/-! The Markdown report of a manifest. It is made of the manifest alone, and of its content
only: stages come by ordinal and name, settings by name. -/
namespace BuildRules.Report

inductive Fault where
  /-- There is no manifest to report on. -/
  | noManifest
  | shape (fault : Value.Fault)
deriving DecidableEq

def Fault.message : Fault → String
  | .noManifest => "Manifest is required to generate the CI report"
  | .shape _ => ""

/-- A section of the manifest; one of another type counts as empty. -/
def sectionOf (manifest : Record) (name : String) : Record :=
  match Record.get? manifest name with
  | some (.map entries) => entries
  | _ => []

def textOr (record : Record) (name standard : String) : Except Value.Fault String :=
  ((Record.get? record name).getD (.text standard)).display

def unknown : String := "<unknown>"

def code (text : String) : String := "`" ++ text ++ "`"

/-- A stage as listed: its key and its entry. -/
abbrev Listed := Scalar × Record

def ordinalOf (entry : Record) : Value := (Record.get? entry "ordinal").getD (.int 0)

def listedBefore (left right : Listed) : Except Value.Fault Bool :=
  if (ordinalOf left.2).same (ordinalOf right.2) then left.1.before right.1
  else (ordinalOf left.2).before (ordinalOf right.2)

/-- Stages by ordinal, then by name. What is no map is no stage. -/
def orderedStages (stages : Record) : Except Value.Fault (List (Scalar × Record)) :=
  Sorted.sortChecked listedBefore (stages.filterMap fun entry =>
    match entry.2 with
    | .map fields => some (entry.1, fields)
    | _ => none)

def triggerLines (run : Record) : Except Value.Fault (List String) :=
  match Record.get? run "trigger" with
  | some (.map []) => .ok []
  | some (.map trigger) => do
    let event ← textOr trigger "event" unknown
    let branch ← textOr trigger "branch" unknown
    return ["- **Trigger**: " ++ code event ++ " on " ++ code branch]
  | _ => .ok []

def resultLines (outcome : Record) : Except Value.Fault (List String) :=
  if outcome.isEmpty then .ok ["- **Result**: `unknown` (no outcome recorded)"]
  else if ((Record.get? outcome "succeeded").getD .null).truthy then
    .ok ["- **Result**: `succeeded`"]
  else do
    let stage ← textOr outcome "stage" unknown
    let reason ← textOr outcome "reason" unknown
    return ["- **Result**: `failed`", "- **Failed Stage**: " ++ code stage,
      "- **Reason**: " ++ code reason]

def outcomeLines (run outcome : Record) : Except Value.Fault (List String) := do
  let result ← resultLines outcome
  let name ← textOr run "run_id" unknown
  let started ← textOr run "started_at" unknown
  let trigger ← triggerLines run
  return result ++ ["- **Run ID**: " ++ code name, "- **Started At (UTC)**: " ++ code started] ++
    trigger

def exitText (stage : Record) : Except Value.Fault String :=
  match Record.get? stage "returncode" with
  | none | some .null => .ok "-"
  | some value => value.display

def stageRow (listed : Listed) : Except Value.Fault String := do
  let ordinal ← textOr listed.2 "ordinal" "-"
  let name ← listed.1.display
  let status ← textOr listed.2 "status" "unknown"
  let exit ← exitText listed.2
  let duration ← textOr listed.2 "duration_ms" "-"
  return "| " ++ " | ".intercalate [ordinal, name, status, exit, duration] ++ " |"

def stageLines (stages : List Listed) : Except Value.Fault (List String) :=
  if stages.isEmpty then .ok ["No stages recorded in the Manifest."]
  else do
    let rows ← stages.mapM stageRow
    return ["| # | Stage | Status | Exit | Duration (ms) |",
      "|---|-------|--------|------|---------------|"] ++ rows

def warningLine (key : Scalar) (item : Value) : Except Value.Fault String := do
  let name ← key.display
  let shown ← item.display
  return "- **" ++ name ++ "**: " ++ shown

def warningLinesOf (listed : Listed) : Except Value.Fault (List String) := do
  let warnings := ((Record.get? listed.2 "warnings").getD .null).orElse (.list [])
  (← warnings.sequence).mapM (warningLine listed.1)

def warningLines (stages : List Listed) : Except Value.Fault (List String) := do
  let lines := (← stages.mapM warningLinesOf).flatten
  return if lines.isEmpty then ["No lint warnings recorded."] else lines

def hintLines (error : Record) : Except Value.Fault (List String) :=
  let hint := (Record.get? error "hint").getD .null
  if hint.truthy then do return ["- **Hint**: " ++ (← hint.display)] else .ok []

def commandLines (stage : Record) : Except Value.Fault (List String) :=
  let arguments := (Record.get? stage "argv").getD .null
  if arguments.truthy then do return ["- **Command**: " ++ code (← arguments.joined " ")]
  else .ok []

def failureLinesOf (listed : Listed) (error : Record) :
    Except Value.Fault (List String) := do
  let name ← listed.1.display
  let type ← textOr error "type" unknown
  let message ← textOr error "message" ""
  let hint ← hintLines error
  let command ← commandLines listed.2
  return ["### " ++ name, "- **Type**: " ++ code type, "- **Message**: " ++ message] ++ hint ++
    command

def failureLines (stages : List Listed) : Except Value.Fault (List String) := do
  let parts ← stages.mapM fun listed =>
    match Record.get? listed.2 "error" with
    | some (.map error) => failureLinesOf listed error
    | _ => .ok []
  let lines := parts.flatten
  return if lines.isEmpty then ["No stage failures recorded."] else lines

def environmentLine (entry : Scalar × Value) : Except Value.Fault String := do
  let name ← entry.1.display
  let value ← entry.2.display
  return "- " ++ code (name ++ "=" ++ value)

def environmentLines (inputs : Record) : Except Value.Fault (List String) := do
  match Record.get? inputs "environment" with
  | some (.map (first :: rest)) =>
    let sorted ← Sorted.sortChecked (fun left right => Scalar.before left.1 right.1)
      (first :: rest)
    sorted.mapM environmentLine
  | _ => return ["No environment overrides recorded."]

def traceLines (run inputs : Record) (events : Nat) :
    Except Value.Fault (List String) := do
  let identity ← textOr inputs "policy_hash" unknown
  let version ← textOr run "buildgate_version" unknown
  let text ← Json.write .indented (.map run)
  return ["- **Policy Hash**: " ++ code identity, "- **BuildGate Version**: " ++ code version,
    "- **Events recorded**: " ++ code (toString events), "```json", text, "```"]

def eventCount (manifest : Record) : Nat :=
  match Record.get? manifest "events" with
  | some (.list items) => items.length
  | _ => 0

def linesOf (manifest : Record) : Except Value.Fault (List String) := do
  let run := sectionOf manifest "run"
  let inputs := sectionOf manifest "inputs"
  let stages ← orderedStages (sectionOf manifest "stages")
  let outcome ← outcomeLines run (sectionOf manifest "outcome")
  let rows ← stageLines stages
  let warnings ← warningLines stages
  let failures ← failureLines stages
  let environment ← environmentLines inputs
  let trace ← traceLines run inputs (eventCount manifest)
  return ["# CI Report\n", "## Outcome"] ++ outcome ++ ["", "## Stages"] ++ rows ++
    ["", "## Lint Warnings"] ++ warnings ++ ["", "## Failure Details"] ++ failures ++
    ["", "## Environment"] ++ environment ++ ["", "## Traceability"] ++ trace

/-- The report of a manifest that has at least one entry. -/
def generate (manifest : Value) : Except Fault String :=
  match manifest with
  | .map (first :: rest) =>
    match linesOf (first :: rest) with
    | .ok lines => .ok ("\n".intercalate lines ++ "\n")
    | .error fault => .error (.shape fault)
  | _ => .error .noManifest

end BuildRules.Report
