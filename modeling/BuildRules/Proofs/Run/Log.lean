import BuildRules.Proofs.Value.Entries
import BuildRules.Run.Log

/-! What a log says apart from its times. It only grows, and the warnings that it keeps by stage
are the events that it has of them. -/
namespace BuildRules

structure LogLine where
  runId : String
  stage : String
  level : String
  message : String
  extra : Record

def LogEvent.line (event : LogEvent) : LogLine :=
  ⟨event.runId, event.stage, event.level, event.message, event.extra⟩

namespace LogLine

/-- Changes of state are all that is logged for debugging. -/
def isTransition (line : LogLine) : Bool := line.level == "DEBUG"

def warns (stage : String) (line : LogLine) : Bool := line.level == "WARNING" && line.stage == stage

def warning (runId stage message : String) : LogLine := ⟨runId, stage, "WARNING", message, []⟩

/-- Messages of the warnings for a stage. -/
def warningsOf (stage : String) (lines : List LogLine) : List String :=
  (lines.filter (warns stage)).map message

theorem warningsOf_append (stage : String) (front back : List LogLine) :
    warningsOf stage (front ++ back) = warningsOf stage front ++ warningsOf stage back := by
  rw [warningsOf, List.filter_append, List.map_append]
  rfl

theorem warningsOf_warnings (runId stage other : String) (messages : List String) :
    warningsOf other (messages.map (warning runId stage)) =
      if stage = other then messages else [] := by
  by_cases same : stage = other
  · rw [if_pos same]
    have each : (messages.map (warning runId stage)).filter (warns other) =
        messages.map (warning runId stage) := by
      simp [List.filter_eq_self, warns, warning, same]
    rw [warningsOf, each, List.map_map]
    exact List.map_id _
  · simp [warningsOf, warns, warning, same]

end LogLine

namespace RunLog

variable {log later last : RunLog}

def lines (log : RunLog) : List LogLine := log.events.map LogEvent.line

def transitions (log : RunLog) : List LogLine := log.lines.filter LogLine.isTransition

@[simp] theorem lines_add (log : RunLog) (time : Timestamp) (stage level message : String)
    (extra : Record) :
    (log.add time stage level message extra).lines =
      log.lines ++ [⟨log.runId, stage, level, message, extra⟩] :=
  List.map_append

@[simp] theorem lines_warn (log : RunLog) (time : Timestamp) (stage message : String) :
    (log.warn time stage message).lines = log.lines ++ [.warning log.runId stage message] :=
  List.map_append

theorem lines_warnAll {α : Type} (log : RunLog) (time : Timestamp) (stage : String)
    (message : α → String) (items : List α) :
    (items.foldl (fun log item => log.warn time stage (message item)) log).lines =
      log.lines ++ items.map fun item => .warning log.runId stage (message item) := by
  induction items generalizing log with
  | nil => exact (List.append_nil _).symm
  | cons item rest ih =>
    rw [List.foldl_cons, ih, lines_warn, List.append_assoc]
    rfl

/-- Nothing is taken back. -/
inductive Grows (log : RunLog) : RunLog → Prop
  | refl : Grows log log
  | add {later : RunLog} (grows : Grows log later) (time : Timestamp) (stage : String)
      {level : String} (plain : level ≠ "WARNING") (message : String) (extra : Record) :
      Grows log (later.add time stage level message extra)
  | warn {later : RunLog} (grows : Grows log later) (time : Timestamp) (stage message : String) :
      Grows log (later.warn time stage message)

namespace Grows

theorem trans (grows : log.Grows later) (further : later.Grows last) : log.Grows last := by
  induction further with
  | refl => exact grows
  | add _ time stage plain message extra ih => exact ih.add time stage plain message extra
  | warn _ time stage message ih => exact ih.warn time stage message

theorem warnAll {α : Type} (grows : log.Grows later) (time : Timestamp) (stage : String)
    (message : α → String) (items : List α) :
    log.Grows (items.foldl (fun log item => log.warn time stage (message item)) later) := by
  induction items generalizing later with
  | nil => exact grows
  | cons item rest ih => exact ih (grows.warn time stage (message item))

theorem runId (grows : log.Grows later) : later.runId = log.runId := by
  induction grows with
  | refl => rfl
  | add _ _ _ _ _ _ ih => exact ih
  | warn _ _ _ _ ih => exact ih

/-- What was logged is what the longer log begins with. -/
theorem begins (grows : log.Grows later) : log.events <+: later.events := by
  induction grows with
  | refl => exact List.prefix_rfl
  | add _ _ _ _ _ _ ih => exact ih.trans (List.prefix_append _ _)
  | warn _ _ _ _ ih => exact ih.trans (List.prefix_append _ _)

end Grows

def entryOf (messages : List String) : Option (List String) :=
  if messages.isEmpty then none else some messages

/-- The warnings of each stage are kept as they were logged. -/
def Grouped (log : RunLog) : Prop :=
  ∀ stage, Entries.find? log.warnings stage = entryOf (LogLine.warningsOf stage log.lines)

theorem grouped_empty (runId : String) : (empty runId).Grouped := fun _ => rfl

theorem getD_entryOf (messages : List String) : (entryOf messages).getD [] = messages := by
  cases messages <;> rfl

theorem Grouped.add {level : String} (grouped : log.Grouped) (plain : level ≠ "WARNING")
    (time : Timestamp) (stage message : String) (extra : Record) :
    (log.add time stage level message extra).Grouped := by
  intro other
  have silent : LogLine.warningsOf other [⟨log.runId, stage, level, message, extra⟩] = [] := by
    simp [LogLine.warningsOf, LogLine.warns, plain]
  rw [lines_add, LogLine.warningsOf_append, silent, List.append_nil]
  exact grouped other

theorem Grouped.warn (grouped : log.Grouped) (time : Timestamp) (stage message : String) :
    (log.warn time stage message).Grouped := by
  intro other
  have kept : (log.warn time stage message).warnings =
      Entries.insert log.warnings stage (LogLine.warningsOf stage log.lines ++ [message]) := by
    rw [RunLog.warn, grouped stage, getD_entryOf]
    rfl
  have logged := LogLine.warningsOf_warnings log.runId stage other [message]
  rw [List.map_singleton] at logged
  rw [kept, lines_warn, LogLine.warningsOf_append, logged]
  by_cases same : stage = other
  · subst same
    rw [Entries.find?_insert_self (String.exact_key stage), if_pos rfl, entryOf]
    simp
  · rw [Entries.find?_insert_other (String.exact_key stage) (String.exact_key other) (Ne.symm same),
      if_neg same, List.append_nil]
    exact grouped other

theorem Grows.grouped (grows : log.Grows later) (grouped : log.Grouped) : later.Grouped := by
  induction grows with
  | refl => exact grouped
  | add _ time stage plain message extra ih => exact ih.add plain time stage message extra
  | warn _ time stage message ih => exact ih.warn time stage message

/-- Logs that say the same, if at other times. -/
structure Alike (log other : RunLog) : Prop where
  runId : log.runId = other.runId
  lines : log.lines = other.lines
  warnings : log.warnings = other.warnings

namespace Alike

variable {other : RunLog}

theorem add (alike : log.Alike other) (time otherTime : Timestamp) (stage level message : String)
    (extra : Record) :
    (log.add time stage level message extra).Alike
      (other.add otherTime stage level message extra) := by
  refine ⟨alike.runId, ?_, alike.warnings⟩
  rw [lines_add, lines_add, alike.lines, alike.runId]

theorem warn (alike : log.Alike other) (time otherTime : Timestamp) (stage message : String) :
    (log.warn time stage message).Alike (other.warn otherTime stage message) := by
  refine ⟨alike.runId, ?_, ?_⟩
  · rw [lines_warn, lines_warn, alike.lines, alike.runId]
  · simp only [RunLog.warn, RunLog.add, alike.warnings]

theorem warnAll {α : Type} (alike : log.Alike other) (time otherTime : Timestamp) (stage : String)
    (message : α → String) (items : List α) :
    (items.foldl (fun log item => log.warn time stage (message item)) log).Alike
      (items.foldl (fun log item => log.warn otherTime stage (message item)) other) := by
  induction items generalizing log other with
  | nil => exact alike
  | cons item rest ih => exact ih (alike.warn time otherTime stage (message item))

end Alike
end RunLog
end BuildRules
