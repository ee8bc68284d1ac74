import BuildRules.Time.Iso
import BuildRules.Value.Basic

namespace BuildRules

structure LogEvent where
  runId : String
  stage : String
  level : String
  message : String
  time : Timestamp
  /-- Further fields; one that has the name of a standard field takes its place. -/
  extra : Record

namespace LogEvent

def timeField : String := "timestamp"

def toRecord (event : LogEvent) : Record :=
  Entries.update
    (Record.ofFields [("run_id", .text event.runId), ("stage", .text event.stage),
      ("level", .text event.level), ("message", .text event.message),
      (timeField, .text event.time.iso)])
    event.extra

end LogEvent

structure RunLog where
  runId : String
  events : List LogEvent
  warnings : Entries String (List String)

namespace RunLog

def empty (runId : String) : RunLog := ⟨runId, [], []⟩

def add (log : RunLog) (time : Timestamp) (stage level message : String)
    (extra : Record := []) : RunLog :=
  { log with events := log.events ++ [⟨log.runId, stage, level, message, time, extra⟩] }

/-- A warning is kept under its stage and logged. -/
def warn (log : RunLog) (time : Timestamp) (stage message : String) : RunLog :=
  let earlier := (Entries.find? log.warnings stage).getD []
  { log with warnings := Entries.insert log.warnings stage (earlier ++ [message]) }.add
    time stage "WARNING" message

end RunLog
end BuildRules
