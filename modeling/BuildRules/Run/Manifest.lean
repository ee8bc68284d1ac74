import BuildRules.Json.Parse
import BuildRules.Time.Iso

/-! The manifest: what a run was given, the state of its stages, and its events in order.
Timestamps are kept as UTC text. A recording that fails may have made its first change. -/
namespace BuildRules

structure Manifest where
  run : Record
  inputs : Record
  stages : Entries Scalar Record
  events : List Record
  outcome : Record

namespace Manifest

inductive Fault where
  | shape (fault : Value.Fault)
  /-- A timestamp that no UTC clock shows. -/
  | outsideCalendar
  /-- A stored start that is no timestamp. -/
  | startMalformed
  | startNotText (kind : Kind)

abbrev Recording := ExceptT Fault (StateM Manifest)

def lift {α : Type} (result : Except Value.Fault α) : Except Fault α :=
  result.mapError Fault.shape

def utcText (time : Timestamp) : Except Fault String :=
  match time.utc? with
  | some utc => .ok utc.iso
  | none => .error .outsideCalendar

/-- A manifest without stages, events and outcome. A trigger that counts as false is none. -/
def create (runId : Value) (startedAt : Timestamp) (version identity environment trigger : Value) :
    Except Fault Manifest := do
  let started ← utcText startedAt
  let run : Record := .ofFields
    [("run_id", runId), ("started_at", .text started), ("buildgate_version", version)]
  let run ←
    if trigger.truthy then do
      let table ← lift trigger.table
      pure (run ++ [(.text "trigger", .map table)])
    else pure run
  let table ← lift (environment.orElse (.map [])).table
  return ⟨run, .ofFields [("policy_hash", identity), ("environment", .map table)], [], [], []⟩

/-- A field that is left out where its value is absent or null. -/
def optionalField (name : String) (value : Option Value) : List (String × Value) :=
  ((value.filter fun value => !value.isNull).map fun value => (name, value)).toList

def event (type : Value) (time : Timestamp) (stage payload : Option Value) :
    Except Fault Record := do
  let stamp ← utcText time
  return .ofFields ([("event_type", type), ("timestamp", .text stamp)] ++
    optionalField "stage" stage ++ optionalField "payload" payload)

def addEvent (type : Value) (time : Timestamp) (stage payload : Option Value) :
    Recording Unit := do
  let record ← liftM (event type time stage payload)
  modify fun manifest => { manifest with events := manifest.events ++ [record] }

def stageKey : Value → Except Fault Scalar
  | .scalar key => .ok key
  | value => .error (.shape (.notKey value.kind))

def stageAt (key : Scalar) : Recording Record :=
  return (Entries.find? (← get).stages key).getD []

/-- An entry for a stage that has none. -/
def ensureStage (key : Scalar) (entry : Record) : Recording Unit :=
  modify fun manifest => { manifest with stages := Entries.insertNew manifest.stages key entry }

def updateStage (key : Scalar) (fields : Record) : Recording Unit :=
  modify fun manifest =>
    let entry := (Entries.find? manifest.stages key).getD []
    { manifest with stages := Entries.insert manifest.stages key (Entries.update entry fields) }

/-- The stage is running, and `stage_started` says so. -/
def stageStarted (stage ordinal arguments : Value) (time : Timestamp) : Recording Unit := do
  let key ← liftM (stageKey stage)
  ensureStage key []
  let items ← liftM (lift arguments.sequence)
  let started ← liftM (utcText time)
  updateStage key (.ofFields
    [("stage", stage), ("ordinal", ordinal), ("argv", .list items),
      ("status", .text "running"), ("started_at", .text started)])
  addEvent (.text "stage_started") time (some stage)
    (some (.ofFields [("ordinal", ordinal)]))

/-- Milliseconds from the stored start of a stage; none stored counts as no time. -/
def durationFrom (entry : Record) (time : Timestamp) : Except Fault Int :=
  let stored := (Record.get? entry "started_at").getD .null
  if !stored.truthy then .ok 0
  else
    match stored with
    | .text text =>
      match Timestamp.ofIso? text with
      | none => .error .startMalformed
      | some start =>
        match start.utc?, time.utc? with
        | some first, some last => .ok (Time.milliseconds (last.instant - first.instant))
        | _, _ => .error .outsideCalendar
    | _ => .error (.startNotText stored.kind)

/-- Fields that every end of a stage sets. -/
def closing (entry : Record) (status : Value) (time : Timestamp) (code warnings : Value) :
    Except Fault (Int × Record) := do
  let finished ← utcText time
  let duration ← durationFrom entry time
  let items ← lift (warnings.orElse (.list [])).sequence
  return (duration, .ofFields
    [("status", status), ("finished_at", .text finished), ("duration_ms", .int duration),
      ("returncode", code), ("warnings", .list items)])

def stageFinished (stage : Value) (time : Timestamp) (code warnings : Value) :
    Recording Unit := do
  let key ← liftM (stageKey stage)
  ensureStage key (.ofFields [("stage", stage)])
  let (duration, fields) ← liftM (closing (← stageAt key) (.text "success") time code warnings)
  updateStage key fields
  addEvent (.text "stage_finished") time (some stage)
    (some (.ofFields [("status", .text "success"), ("duration_ms", .int duration)]))

/-- A failed or cancelled stage. Its ordinal is kept where one is recorded already. -/
def stageFailed (stage : Value) (time : Timestamp) (status error code warnings ordinal : Value) :
    Recording Unit := do
  let key ← liftM (stageKey stage)
  ensureStage key (.ofFields [("stage", stage)])
  if !ordinal.isNull then
    let entry ← stageAt key
    updateStage key (if Entries.has entry (.text "ordinal") then []
      else .ofFields [("ordinal", ordinal)])
  let (_, fields) ← liftM (closing (← stageAt key) status time code warnings)
  let table ← liftM (lift error.table)
  updateStage key (fields ++ [(.text "error", .map table)])
  let entries ← liftM (lift error.entries)
  addEvent (.text "stage_failed") time (some stage)
    (some (.ofFields [("error", (Record.get? entries "type").getD .null)]))

/-- The outcome of the run, and `run_finished`. -/
def recordOutcome (time : Timestamp) (outcome : Value) : Recording Unit := do
  let table ← liftM (lift outcome.table)
  modify fun manifest => { manifest with outcome := table }
  addEvent (.text "run_finished") time none (some (.map table))

def toValue (manifest : Manifest) : Value :=
  .ofFields
    [("run", .map manifest.run), ("inputs", .map manifest.inputs),
      ("stages", .map (manifest.stages.map fun entry => (entry.1, .map entry.2))),
      ("events", .list (manifest.events.map .map)), ("outcome", .map manifest.outcome)]

def fieldOr (fallback : Value) (record : Record) (name : String) : Value :=
  (Record.get? record name).getD fallback

/-- The manifest of a value; absent sections are empty. -/
def ofValue (value : Value) : Except Value.Fault Manifest := do
  let record ← value.entries
  let run ← (fieldOr (.map []) record "run").table
  let inputs ← (fieldOr (.map []) record "inputs").table
  let stages ← ((fieldOr (.map []) record "stages").orElse (.map [])).entries
  let stages ← stages.mapM fun entry => do return (entry.1, ← entry.2.table)
  let events ← ((fieldOr (.list []) record "events").orElse (.list [])).sequence
  let events ← events.mapM Value.table
  let outcome ← ((fieldOr (.map []) record "outcome").orElse (.map [])).table
  return ⟨run, inputs, stages, events, outcome⟩

/-- The stored form: indented, members sorted. -/
def write (manifest : Manifest) : Except Value.Fault String :=
  Json.write .indented manifest.toValue

inductive ReadError where
  | syntax_ (error : Json.ParseError)
  | shape (fault : Value.Fault)

def read (text : String) : Except ReadError Manifest := do
  let value ← (Json.read text).mapError ReadError.syntax_
  (ofValue value).mapError ReadError.shape

end Manifest
end BuildRules
