import BuildRules.Proofs.Returns
import BuildRules.Proofs.Time.IsoText
import BuildRules.Proofs.Value.Entries
import BuildRules.Run.Manifest

namespace BuildRules

namespace Manifest

theorem utcText_eq {time : Timestamp} (shown : time.utc?.isSome) :
    utcText time = .ok time.utcIso := by
  obtain ⟨utc, shown⟩ := Option.isSome_iff_exists.mp shown
  simp [utcText, Timestamp.utcIso, shown]

def entryOf (manifest : Manifest) (name : String) : Record :=
  (Entries.find? manifest.stages (.text name)).getD []

def ensured (manifest : Manifest) (name : String) (fields : List (String × Value)) : Manifest :=
  { manifest with stages := Entries.insertNew manifest.stages (.text name) (.ofFields fields) }

def updated (manifest : Manifest) (name : String) (fields : List (String × Value)) : Manifest :=
  { manifest with
    stages := Entries.insert manifest.stages (.text name)
      (Entries.update (manifest.entryOf name) (Record.ofFields fields)) }

def eventWith (type : String) (time : Timestamp) (stage : Option String) (payload : Record) :
    Record :=
  .ofFields ([("event_type", .text type), ("timestamp", .text time.utcIso)] ++
    (stage.map fun name => ("stage", .text name)).toList ++ [("payload", .map payload)])

def eventOf (type : String) (time : Timestamp) (stage : Option String)
    (payload : List (String × Value)) : Record :=
  .ofFields ([("event_type", .text type), ("timestamp", .text time.utcIso)] ++
    (stage.map fun name => ("stage", .text name)).toList ++ [("payload", .ofFields payload)])

def noted (manifest : Manifest) (event : Record) : Manifest :=
  { manifest with events := manifest.events ++ [event] }

@[simp] theorem entryOf_updated (manifest : Manifest) (name : String)
    (fields : List (String × Value)) :
    (manifest.updated name fields).entryOf name =
      Entries.update (manifest.entryOf name) (Record.ofFields fields) := by
  rw [entryOf, updated, Entries.find?_insert_self (Scalar.exact_text name)]
  rfl

@[simp] theorem entryOf_noted (manifest : Manifest) (event : Record) (name : String) :
    (manifest.noted event).entryOf name = manifest.entryOf name := rfl

theorem entryOf_ensured (manifest : Manifest) (name : String) (fields : List (String × Value)) :
    (manifest.ensured name fields).entryOf name =
      (Entries.find? manifest.stages (.text name)).getD (.ofFields fields) := by
  rw [entryOf, ensured, Entries.insertNew, Entries.has]
  cases found : Entries.find? manifest.stages (.text name) with
  | none =>
    simp only [Option.isSome_none, Bool.false_eq_true, if_false]
    rw [Entries.find?_insert_self (Scalar.exact_text name)]
    rfl
  | some entry =>
    simp only [Option.isSome_some, if_true]
    rw [found]
    rfl

/-- A field that a new entry does not set is what it was. -/
theorem get?_entryOf_ensured (manifest : Manifest) (name field : String)
    (fields : List (String × Value)) (unset : Record.get? (.ofFields fields) field = none) :
    Record.get? ((manifest.ensured name fields).entryOf name) field =
      Record.get? (manifest.entryOf name) field := by
  rw [entryOf_ensured, entryOf]
  cases Entries.find? manifest.stages (.text name) with
  | none => exact unset
  | some entry => rfl

theorem durationFrom_congr {entry other : Record} {time : Timestamp}
    (same : Record.get? entry "started_at" = Record.get? other "started_at") :
    durationFrom entry time = durationFrom other time := by
  rw [durationFrom, durationFrom, same]

/-- A start that an entry stores is a timestamp that a UTC clock shows. -/
def StartReadable (entry : Record) : Prop :=
  ∀ stored, Record.get? entry "started_at" = some stored → stored.truthy = true →
    ∃ text start, stored = .text text ∧ Timestamp.ofIso? text = some start ∧ start.utc?.isSome

/-- Durations can be measured in the manifest. A new one is so, and every recording keeps it. -/
def StartsReadable (manifest : Manifest) : Prop :=
  ∀ entry ∈ manifest.stages, StartReadable entry.2

theorem StartsReadable.entryOf {manifest : Manifest} (readable : manifest.StartsReadable)
    (name : String) : StartReadable (manifest.entryOf name) := by
  rw [Manifest.entryOf]
  cases found : Entries.find? manifest.stages (.text name) with
  | none =>
    intro stored field
    cases field
  | some entry => exact readable _ (Entries.mem_of_find? (Scalar.exact_text name) found)

theorem startsReadable_of_empty {manifest : Manifest} (empty : manifest.stages = []) :
    manifest.StartsReadable := by
  rw [StartsReadable, empty]
  exact fun _ member => absurd member List.not_mem_nil

/-- Milliseconds from the stored start of a stage; a start that is not readable counts as
no time. -/
def spanTo (manifest : Manifest) (name : String) (time : Timestamp) : Int :=
  match durationFrom (manifest.entryOf name) time with
  | .ok milliseconds => milliseconds
  | .error _ => 0

theorem durationFrom_eq_spanTo {manifest : Manifest} {name : String} {time : Timestamp}
    (readable : StartReadable (manifest.entryOf name)) (shown : time.utc?.isSome) :
    durationFrom (manifest.entryOf name) time = .ok (manifest.spanTo name time) := by
  have measured :
      ∃ milliseconds, durationFrom (manifest.entryOf name) time = .ok milliseconds := by
    rw [durationFrom]
    cases field : Record.get? (manifest.entryOf name) "started_at" with
    | none => exact ⟨0, rfl⟩
    | some stored =>
      cases truthy : stored.truthy with
      | false => exact ⟨0, by simp [truthy]⟩
      | true =>
        obtain ⟨text, start, rfl, read, begun⟩ := readable stored field truthy
        obtain ⟨first, begun⟩ := Option.isSome_iff_exists.mp begun
        obtain ⟨last, ended⟩ := Option.isSome_iff_exists.mp shown
        exact ⟨Time.milliseconds (last.instant - first.instant),
          by simp [truthy, read, begun, ended]⟩
  obtain ⟨milliseconds, measured⟩ := measured
  rw [spanTo, measured]

def startingFields (name : String) (ordinal : Int) (arguments : List String) (time : Timestamp) :
    List (String × Value) :=
  [("stage", .text name), ("ordinal", .int ordinal), ("argv", .ofTexts arguments),
    ("status", .text "running"), ("started_at", .text time.utcIso)]

def withStart (manifest : Manifest) (name : String) (ordinal : Int) (arguments : List String)
    (time : Timestamp) : Manifest :=
  ((manifest.ensured name []).updated name (startingFields name ordinal arguments time)).noted
    (eventOf "stage_started" time name [("ordinal", .int ordinal)])

/-- Fields that an end sets, whatever it is given. -/
def endingFields (status : Value) (time : Timestamp) (milliseconds : Int) (code : Value)
    (warnings : List Value) : List (String × Value) :=
  [("status", status), ("finished_at", .text time.utcIso), ("duration_ms", .int milliseconds),
    ("returncode", code), ("warnings", .list warnings)]

/-- Fields that every recorded end sets. -/
def closingFields (status : String) (time : Timestamp) (milliseconds : Int) (code : Value)
    (warnings : List String) : List (String × Value) :=
  [("status", .text status), ("finished_at", .text time.utcIso),
    ("duration_ms", .int milliseconds), ("returncode", code), ("warnings", .ofTexts warnings)]

/-- The manifest after a recorded success. -/
def withSuccess (manifest : Manifest) (name : String) (time : Timestamp) (code : Value)
    (warnings : List String) : Manifest :=
  ((manifest.ensured name [("stage", .text name)]).updated name
    (closingFields "success" time (manifest.spanTo name time) code warnings)).noted
    (eventOf "stage_finished" time name
      [("status", .text "success"), ("duration_ms", .int (manifest.spanTo name time))])

/-- An ordinal for a stage that has none. -/
def numbered (manifest : Manifest) (name : String) (ordinal : Value) : Manifest :=
  if ordinal.isNull then manifest
  else
    manifest.updated name
      (if Entries.has (manifest.entryOf name) (.text "ordinal") then []
        else [("ordinal", ordinal)])

/-- The ordinal of a failed stage, where none is recorded. -/
def withOrdinal (manifest : Manifest) (name : String) (ordinal : Int) : Manifest :=
  manifest.updated name
    (if Entries.has (manifest.entryOf name) (.text "ordinal") then []
      else [("ordinal", .int ordinal)])

/-- The manifest after a recorded failure. -/
def withFailure (manifest : Manifest) (name : String) (ordinal : Int) (time : Timestamp)
    (status : String) (code : Value) (warnings : List String) (error : Record) : Manifest :=
  (((manifest.ensured name [("stage", .text name)]).withOrdinal name ordinal).updated name
    (closingFields status time (manifest.spanTo name time) code warnings ++
      [("error", .map error)])).noted
    (eventOf "stage_failed" time name [("error", (Record.get? error "type").getD .null)])

/-- The manifest after the recorded outcome of a run. -/
def withOutcome (manifest : Manifest) (time : Timestamp) (fields : List (String × Value)) :
    Manifest :=
  { manifest with outcome := .ofFields fields }.noted (eventOf "run_finished" time none fields)

section Recordings

variable {manifest : Manifest} {name : String} {time : Timestamp}

theorem addEvent_map_returns (shown : time.utc?.isSome) (type : String) (stage : Option String)
    (payload : Record) :
    Returns (addEvent (.text type) time (stage.map .text) (some (.map payload))) manifest ()
      (manifest.noted (eventWith type time stage payload)) := by
  have built : event (.text type) time (stage.map .text) (some (.map payload)) =
      .ok (eventWith type time stage payload) := by
    rw [event, utcText_eq shown]
    cases stage <;> rfl
  exact .andThen (.lift built manifest) (.change _ manifest)

theorem addEvent_returns (shown : time.utc?.isSome) (type : String) (stage : Option String)
    (payload : List (String × Value)) :
    Returns (addEvent (.text type) time (stage.map .text) (some (.ofFields payload))) manifest ()
      (manifest.noted (eventOf type time stage payload)) :=
  addEvent_map_returns shown type stage (.ofFields payload)

theorem ensureStage_returns (manifest : Manifest) (name : String)
    (fields : List (String × Value)) :
    Returns (ensureStage (.text name) (.ofFields fields)) manifest ()
      (manifest.ensured name fields) := rfl

theorem updateStage_returns (manifest : Manifest) (name : String)
    (fields : List (String × Value)) :
    Returns (updateStage (.text name) (.ofFields fields)) manifest ()
      (manifest.updated name fields) := rfl

theorem stageAt_returns (manifest : Manifest) (name : String) :
    Returns (stageAt (.text name)) manifest (manifest.entryOf name) manifest := rfl

theorem lift_of_ok {α : Type} {result : Except Value.Fault α} {value : α}
    (ok : result = .ok value) : lift result = .ok value := by
  rw [lift, ok]
  rfl

theorem started_returns {ordinal arguments : Value} {items : List Value}
    (shown : time.utc?.isSome) (listed : arguments.sequence = .ok items) :
    Returns (stageStarted (.text name) ordinal arguments time) manifest ()
      (((manifest.ensured name []).updated name
        [("stage", .text name), ("ordinal", ordinal), ("argv", .list items),
          ("status", .text "running"), ("started_at", .text time.utcIso)]).noted
        (eventOf "stage_started" time name [("ordinal", ordinal)])) :=
  .andThen (.lift rfl _) <|
  .andThen (ensureStage_returns _ _ []) <|
  .andThen (.lift (lift_of_ok listed) _) <|
  .andThen (.lift (utcText_eq shown) _) <|
  .andThen (updateStage_returns _ _ _) <|
  addEvent_returns shown "stage_started" name _

theorem stageStarted_returns (shown : time.utc?.isSome) (ordinal : Int)
    (arguments : List String) :
    Returns (stageStarted (.text name) (.int ordinal) (.ofTexts arguments) time) manifest ()
      (manifest.withStart name ordinal arguments time) :=
  started_returns shown rfl

theorem orElse_ofTexts (texts : List String) :
    (Value.ofTexts texts).orElse (.list []) = .ofTexts texts := by
  cases texts <;> rfl

theorem sequence_orElse_ofTexts (texts : List String) :
    ((Value.ofTexts texts).orElse (.list [])).sequence = .ok (texts.map .text) := by
  rw [orElse_ofTexts]
  rfl

theorem closing_of_listed {entry : Record} {milliseconds : Int} {warnings : Value}
    {items : List Value} (shown : time.utc?.isSome)
    (measured : durationFrom entry time = .ok milliseconds)
    (listed : (warnings.orElse (.list [])).sequence = .ok items) (status code : Value) :
    closing entry status time code warnings =
      .ok (milliseconds, .ofFields (endingFields status time milliseconds code items)) := by
  rw [closing, utcText_eq shown, measured, lift_of_ok listed]
  rfl

/-- A new entry makes no difference to the duration. -/
theorem durationFrom_ensured (manifest : Manifest) (name : String) (time : Timestamp) :
    durationFrom ((manifest.ensured name [("stage", .text name)]).entryOf name) time =
      durationFrom (manifest.entryOf name) time :=
  durationFrom_congr (get?_entryOf_ensured manifest name "started_at" _ rfl)

theorem finished_returns {milliseconds : Int} {warnings : Value} {items : List Value}
    (shown : time.utc?.isSome)
    (measured : durationFrom (manifest.entryOf name) time = .ok milliseconds)
    (listed : (warnings.orElse (.list [])).sequence = .ok items) (code : Value) :
    Returns (stageFinished (.text name) time code warnings) manifest ()
      (((manifest.ensured name [("stage", .text name)]).updated name
        (endingFields (.text "success") time milliseconds code items)).noted
        (eventOf "stage_finished" time name
          [("status", .text "success"), ("duration_ms", .int milliseconds)])) := by
  have found := (durationFrom_ensured manifest name time).trans measured
  have closed := closing_of_listed shown found listed (.text "success") code
  exact
    .andThen (.lift rfl _) <|
    .andThen (ensureStage_returns _ _ [("stage", .text name)]) <|
    .andThen (stageAt_returns _ _) <|
    .andThen (.lift closed _) <|
    .andThen (updateStage_returns _ _ _) <|
    addEvent_returns shown "stage_finished" name _

theorem stageFinished_returns (readable : StartReadable (manifest.entryOf name))
    (shown : time.utc?.isSome) (code : Value) (warnings : List String) :
    Returns (stageFinished (.text name) time code (.ofTexts warnings)) manifest ()
      (manifest.withSuccess name time code warnings) :=
  finished_returns shown (durationFrom_eq_spanTo readable shown) (sequence_orElse_ofTexts warnings)
    code

theorem get?_entryOf_numbered (manifest : Manifest) (name field : String) (ordinal : Value)
    (other : "ordinal" ≠ field) :
    Record.get? ((manifest.numbered name ordinal).entryOf name) field =
      Record.get? (manifest.entryOf name) field := by
  rw [numbered]
  split
  · rfl
  · rw [entryOf_updated]
    split
    · rw [Record.get?_update_nil]
    · rw [Record.get?_update_cons, Record.get?_update_nil, Record.get?_insert, if_neg other]

/-- An ordinal makes no difference to the duration. -/
theorem durationFrom_numbered (manifest : Manifest) (name : String) (ordinal : Value)
    (time : Timestamp) :
    durationFrom ((manifest.numbered name ordinal).entryOf name) time =
      durationFrom (manifest.entryOf name) time :=
  durationFrom_congr (get?_entryOf_numbered manifest name "started_at" ordinal (by decide))

theorem updateOrdinal_returns {ordinal : Value} (given : ordinal.isNull = false)
    (manifest : Manifest) (name : String) :
    Returns (updateStage (.text name)
      (if Entries.has (manifest.entryOf name) (.text "ordinal") then []
        else .ofFields [("ordinal", ordinal)]))
      manifest () (manifest.numbered name ordinal) := by
  rw [numbered, given]
  split
  · exact updateStage_returns manifest name []
  · exact updateStage_returns manifest name [("ordinal", ordinal)]

/-- What a failure records once its stage is entered and has its ordinal. -/
def endFailure (name : String) (time : Timestamp) (status error code warnings : Value) :
    Recording Unit := do
  let (_, fields) ← liftM (closing (← stageAt (.text name)) status time code warnings)
  let table ← liftM (lift error.table)
  updateStage (.text name) (fields ++ [(.text "error", .map table)])
  let entries ← liftM (lift error.entries)
  addEvent (.text "stage_failed") time (some (.text name))
    (some (.ofFields [("error", (Record.get? entries "type").getD .null)]))

/-- With or without an ordinal to store, the end of the stage is recorded next. -/
theorem run_stageFailed (manifest : Manifest) (name : String) (time : Timestamp)
    (status error code warnings ordinal : Value) :
    (stageFailed (.text name) time status error code warnings ordinal).run.run manifest =
      (endFailure name time status error code warnings).run.run
        ((manifest.ensured name [("stage", .text name)]).numbered name ordinal) := by
  refine ((Returns.lift rfl _).run_bind _).trans ?_
  refine ((ensureStage_returns _ _ [("stage", .text name)]).run_bind _).trans ?_
  cases given : ordinal.isNull with
  | true =>
    rw [numbered, if_pos given]
    rfl
  | false =>
    rw [if_pos (by decide)]
    refine ((stageAt_returns _ _).run_bind _).trans ?_
    exact (updateOrdinal_returns given _ _).run_bind _

theorem endFailure_returns {milliseconds : Int} {warnings : Value} {items : List Value}
    (shown : time.utc?.isSome)
    (measured : durationFrom (manifest.entryOf name) time = .ok milliseconds)
    (listed : (warnings.orElse (.list [])).sequence = .ok items)
    (status code : Value) (error : Record) :
    Returns (endFailure name time status (.map error) code warnings) manifest ()
      ((manifest.updated name
        (endingFields status time milliseconds code items ++ [("error", .map error)])).noted
        (eventOf "stage_failed" time name [("error", (Record.get? error "type").getD .null)])) := by
  have closed := closing_of_listed shown measured listed status code
  have stored := updateStage_returns manifest name
    (endingFields status time milliseconds code items ++ [("error", .map error)])
  rw [Record.ofFields, List.map_append] at stored
  exact
    .andThen (stageAt_returns _ _) <|
    .andThen (.lift closed _) <|
    .andThen (.lift rfl _) <|
    .andThen stored <|
    .andThen (.lift rfl _) <|
    addEvent_returns shown "stage_failed" name _

theorem failed_returns {milliseconds : Int} {warnings : Value} {items : List Value}
    (shown : time.utc?.isSome)
    (measured : durationFrom (manifest.entryOf name) time = .ok milliseconds)
    (listed : (warnings.orElse (.list [])).sequence = .ok items)
    (status code ordinal : Value) (error : Record) :
    Returns (stageFailed (.text name) time status (.map error) code warnings ordinal) manifest ()
      ((((manifest.ensured name [("stage", .text name)]).numbered name ordinal).updated name
        (endingFields status time milliseconds code items ++ [("error", .map error)])).noted
        (eventOf "stage_failed" time name [("error", (Record.get? error "type").getD .null)])) := by
  rw [← durationFrom_ensured, ← durationFrom_numbered _ name ordinal] at measured
  exact (run_stageFailed ..).trans (endFailure_returns shown measured listed status code error)

theorem stageFailed_returns (readable : StartReadable (manifest.entryOf name))
    (shown : time.utc?.isSome) (ordinal : Int) (status : String) (code : Value)
    (warnings : List String) (error : Record) :
    Returns (stageFailed (.text name) time (.text status) (.map error) code (.ofTexts warnings)
      (.int ordinal)) manifest ()
      (manifest.withFailure name ordinal time status code warnings error) :=
  failed_returns shown (durationFrom_eq_spanTo readable shown) (sequence_orElse_ofTexts warnings)
    (.text status) code (.int ordinal) error

theorem recordOutcome_returns (shown : time.utc?.isSome) (fields : List (String × Value)) :
    Returns (recordOutcome time (.ofFields fields)) manifest ()
      (manifest.withOutcome time fields) :=
  .andThen (.lift rfl _) <|
  .andThen (.change _ _) <|
  addEvent_returns shown "run_finished" none fields

end Recordings

/-! A time that no UTC clock shows stops every recording, if not before its stage is entered. -/

section Hidden

variable {manifest : Manifest} {name : String} {time : Timestamp}

theorem exists_hidden {kept : Option Manifest}
    (unshown : ¬ (kept.isSome = true → time.utc?.isSome)) :
    ∃ manifest, kept = some manifest ∧ time.utc? = none := by
  push Not at unshown
  obtain ⟨held, hidden⟩ := unshown
  obtain ⟨manifest, present⟩ := Option.isSome_iff_exists.mp held
  exact ⟨manifest, present, Option.not_isSome_iff_eq_none.mp hidden⟩

theorem utcText_of_hidden (hidden : time.utc? = none) : utcText time = .error .outsideCalendar := by
  rw [utcText, hidden]

theorem shown_of_utcText {text : String} (written : utcText time = .ok text) :
    time.utc?.isSome := by
  by_contra hidden
  rw [utcText_of_hidden (Option.not_isSome_iff_eq_none.mp hidden)] at written
  cases written

theorem closing_of_hidden (hidden : time.utc? = none) (entry : Record)
    (status code warnings : Value) :
    closing entry status time code warnings = .error .outsideCalendar := by
  rw [closing, utcText_of_hidden hidden]
  rfl

theorem stageStarted_stops (hidden : time.utc? = none) (ordinal : Int) (arguments : List String) :
    Stops (stageStarted (.text name) (.int ordinal) (.ofTexts arguments) time) manifest
      .outsideCalendar (manifest.ensured name []) :=
  .following (.lift rfl _) <|
  .following (ensureStage_returns _ _ []) <|
  .following (.lift rfl _) <|
  .andThen (.lift (utcText_of_hidden hidden) _)

theorem stageFinished_stops (hidden : time.utc? = none) (code warnings : Value) :
    Stops (stageFinished (.text name) time code warnings) manifest .outsideCalendar
      (manifest.ensured name [("stage", .text name)]) :=
  .following (.lift rfl _) <|
  .following (ensureStage_returns _ _ [("stage", .text name)]) <|
  .following (stageAt_returns _ _) <|
  .andThen (.lift (closing_of_hidden hidden _ _ _ _) _)

/-- A failure stops where its stage cannot be closed. -/
theorem stageFailed_stops {entered : Manifest} {fault : Fault}
    {status error code warnings ordinal : Value}
    (begun : entered = (manifest.ensured name [("stage", .text name)]).numbered name ordinal)
    (unclosed : closing (entered.entryOf name) status time code warnings = .error fault) :
    Stops (stageFailed (.text name) time status error code warnings ordinal) manifest fault
      entered := by
  subst begun
  refine (run_stageFailed ..).trans ?_
  exact Stops.following (stageAt_returns _ _) (.andThen (.lift unclosed _))

theorem recordOutcome_stops (hidden : time.utc? = none) (fields : List (String × Value)) :
    Stops (recordOutcome time (.ofFields fields)) manifest .outsideCalendar
      { manifest with outcome := .ofFields fields } := by
  have unmade (type stage payload) : event type time stage payload = .error .outsideCalendar := by
    rw [event, utcText_of_hidden hidden]
    rfl
  exact .following (.lift rfl _) <| .following (.change _ _) <| .andThen (.lift (unmade _ _ _) _)

/-- A start that is not readable stops the end of its stage. -/
theorem exists_unmeasured {entry : Record} (unreadable : ¬ StartReadable entry) (time : Timestamp) :
    ∃ fault, durationFrom entry time = .error fault := by
  rw [StartReadable] at unreadable
  push Not at unreadable
  obtain ⟨stored, field, truthy, malformed⟩ := unreadable
  rw [durationFrom, field, Option.getD_some, truthy, if_neg (by decide)]
  split
  next text =>
    cases read : Timestamp.ofIso? text with
    | none => exact ⟨_, rfl⟩
    | some start =>
      have hidden : start.utc? = none := by simpa using malformed text start rfl read
      simp [hidden]
  next => exact ⟨_, rfl⟩

/-- A stage is closed just where its start is readable, at times that a UTC clock shows. -/
theorem exists_unclosed (unclosable : ¬ (StartReadable (manifest.entryOf name) ∧ time.utc?.isSome))
    (status code warnings ordinal : Value) : ∃ fault, closing
      (((manifest.ensured name [("stage", .text name)]).numbered name ordinal).entryOf name) status
        time code warnings = .error fault := by
  by_cases shown : time.utc?.isSome
  · obtain ⟨fault, unmeasured⟩ :=
      exists_unmeasured (fun readable => unclosable ⟨readable, shown⟩) time
    refine ⟨fault, ?_⟩
    rw [closing, utcText_eq shown, durationFrom_numbered, durationFrom_ensured, unmeasured]
    rfl
  · exact ⟨_, closing_of_hidden (Option.not_isSome_iff_eq_none.mp shown) _ _ _ _⟩

end Hidden

section Started

variable {started finished : Timestamp}

theorem get?_entryOf_withStart (manifest : Manifest) (name : String) (ordinal : Int)
    (arguments : List String) (started : Timestamp) :
    Record.get? ((manifest.withStart name ordinal arguments started).entryOf name) "started_at" =
      some (.text started.utcIso) := by
  simp [withStart, startingFields]

theorem startReadable_withStart (begun : started.utc?.isSome) (manifest : Manifest)
    (name : String) (ordinal : Int) (arguments : List String) :
    StartReadable ((manifest.withStart name ordinal arguments started).entryOf name) := by
  obtain ⟨first, begun⟩ := Option.isSome_iff_exists.mp begun
  intro stored field _
  rw [get?_entryOf_withStart] at field
  cases field
  refine ⟨_, first, rfl, Timestamp.ofIso?_utcIso begun, ?_⟩
  rw [Timestamp.utc?_of_utc? begun]
  rfl

/-- The duration from a stored start is the span of the clock readings themselves. -/
theorem durationFrom_of_start {entry : Record}
    (stored : Record.get? entry "started_at" = some (.text started.utcIso))
    (begun : started.utc?.isSome) (ended : finished.utc?.isSome) :
    durationFrom entry finished = .ok (Time.milliseconds (finished.instant - started.instant)) := by
  obtain ⟨first, begun⟩ := Option.isSome_iff_exists.mp begun
  obtain ⟨last, ended⟩ := Option.isSome_iff_exists.mp ended
  have truthy : (Value.text started.utcIso).truthy = true := by
    simpa [Value.truthy] using Timestamp.utcIso_ne_empty begun
  rw [durationFrom, stored]
  simp only [Option.getD_some, truthy, Bool.not_true, Bool.false_eq_true, if_false,
    Timestamp.ofIso?_utcIso begun, Timestamp.utc?_of_utc? begun, ended]
  rw [(Timestamp.instant_of_utc? begun).1, (Timestamp.instant_of_utc? ended).1]

theorem spanTo_withStart (begun : started.utc?.isSome) (ended : finished.utc?.isSome)
    (manifest : Manifest) (name : String) (ordinal : Int) (arguments : List String) :
    (manifest.withStart name ordinal arguments started).spanTo name finished =
      Time.milliseconds (finished.instant - started.instant) := by
  have stored := get?_entryOf_withStart manifest name ordinal arguments started
  rw [spanTo, durationFrom_of_start stored begun ended]

end Started

theorem empty_of_create {run version identity environment trigger : Value} {time : Timestamp}
    {manifest : Manifest}
    (created : create run time version identity environment trigger = .ok manifest) :
    manifest.stages = [] ∧ manifest.events = [] ∧ manifest.outcome = [] := by
  obtain ⟨started, -, created⟩ := bind_eq_ok.mp created
  dsimp only at created
  split at created
  next =>
    obtain ⟨trigger, -, created⟩ := bind_eq_ok.mp created
    obtain ⟨run, -, created⟩ := bind_eq_ok.mp created
    obtain ⟨environment, -, created⟩ := bind_eq_ok.mp created
    cases created
    exact ⟨rfl, rfl, rfl⟩
  next =>
    obtain ⟨run, -, created⟩ := bind_eq_ok.mp created
    obtain ⟨environment, -, created⟩ := bind_eq_ok.mp created
    cases created
    exact ⟨rfl, rfl, rfl⟩

theorem stages_of_create {run version identity environment trigger : Value} {time : Timestamp}
    {manifest : Manifest}
    (created : create run time version identity environment trigger = .ok manifest) :
    manifest.stages = [] ∧ manifest.events = [] :=
  ⟨(empty_of_create created).1, (empty_of_create created).2.1⟩

section Fresh

variable {manifest : Manifest} {name : String}

/-- The manifest with one more entry at the end. -/
def withEntry (manifest : Manifest) (name : String) (entry : Record) : Manifest :=
  { manifest with stages := manifest.stages ++ [(.text name, entry)] }

theorem ensured_of_absent (absent : .text name ∉ manifest.stages.keys)
    (fields : List (String × Value)) :
    manifest.ensured name fields = manifest.withEntry name (.ofFields fields) := by
  have missing := Entries.find?_eq_none_of_not_mem (Scalar.exact_text name) absent
  rw [ensured, withEntry, Entries.insertNew, Entries.has, missing,
    Entries.insert_of_not_mem (Scalar.exact_text name) absent]
  rfl

theorem entryOf_withEntry (absent : .text name ∉ manifest.stages.keys) (entry : Record) :
    (manifest.withEntry name entry).entryOf name = entry := by
  rw [entryOf, withEntry, Entries.find?_append_of_not_mem (Scalar.exact_text name) absent,
    Entries.find?_cons_self (Scalar.exact_text name)]
  rfl

theorem ensured_withEntry (absent : .text name ∉ manifest.stages.keys) (entry : Record)
    (fields : List (String × Value)) :
    (manifest.withEntry name entry).ensured name fields = manifest.withEntry name entry := by
  rw [ensured, withEntry, Entries.insertNew, Entries.has,
    Entries.find?_append_of_not_mem (Scalar.exact_text name) absent,
    Entries.find?_cons_self (Scalar.exact_text name)]
  rfl

theorem updated_withEntry (absent : .text name ∉ manifest.stages.keys) (entry : Record)
    (fields : List (String × Value)) :
    (manifest.withEntry name entry).updated name fields =
      manifest.withEntry name (Entries.update entry (Record.ofFields fields)) := by
  rw [updated, entryOf_withEntry absent, withEntry,
    Entries.insert_append_of_not_mem (Scalar.exact_text name) absent, Entries.insert,
    if_pos ((Scalar.exact_text name _).mpr rfl)]
  rfl

theorem withStart_of_absent (absent : .text name ∉ manifest.stages.keys) (ordinal : Int)
    (arguments : List String) (time : Timestamp) :
    manifest.withStart name ordinal arguments time =
      (manifest.noted (eventOf "stage_started" time name [("ordinal", .int ordinal)])).withEntry
        name (Entries.update [] (Record.ofFields (startingFields name ordinal arguments time))) := by
  rw [withStart, ensured_of_absent absent, updated_withEntry absent]
  rfl

theorem withSuccess_withEntry (absent : .text name ∉ manifest.stages.keys) (entry : Record)
    (time : Timestamp) (code : Value) (warnings : List String) :
    (manifest.withEntry name entry).withSuccess name time code warnings =
      let milliseconds := (manifest.withEntry name entry).spanTo name time
      (manifest.noted (eventOf "stage_finished" time name
        [("status", .text "success"), ("duration_ms", .int milliseconds)])).withEntry name
        (Entries.update entry
          (Record.ofFields (closingFields "success" time milliseconds code warnings))) := by
  rw [withSuccess, ensured_withEntry absent, updated_withEntry absent]
  rfl

theorem withFailure_withEntry (absent : .text name ∉ manifest.stages.keys) {entry : Record}
    (numbered : Entries.has entry (.text "ordinal") = true) (ordinal : Int) (time : Timestamp)
    (status : String) (code : Value) (warnings : List String) (error : Record) :
    (manifest.withEntry name entry).withFailure name ordinal time status code warnings error =
      let milliseconds := (manifest.withEntry name entry).spanTo name time
      (manifest.noted (eventOf "stage_failed" time name
        [("error", (Record.get? error "type").getD .null)])).withEntry name
        (Entries.update entry (Record.ofFields
          (closingFields status time milliseconds code warnings ++ [("error", .map error)]))) := by
  rw [withFailure, ensured_withEntry absent, withOrdinal, entryOf_withEntry absent,
    if_pos numbered, updated_withEntry absent, updated_withEntry absent]
  rfl

/-- A stage that fails before it is started gets its name and ordinal first. -/
theorem withFailure_of_absent (absent : .text name ∉ manifest.stages.keys) (ordinal : Int)
    (time : Timestamp) (status : String) (code : Value) (warnings : List String)
    (error : Record) :
    manifest.withFailure name ordinal time status code warnings error =
      (manifest.noted (eventOf "stage_failed" time name
        [("error", (Record.get? error "type").getD .null)])).withEntry name
        (Entries.update (Record.ofFields [("stage", .text name), ("ordinal", .int ordinal)])
          (Record.ofFields
            (closingFields status time 0 code warnings ++ [("error", .map error)]))) := by
  have unnumbered : Entries.has (Record.ofFields [("stage", .text name)]) (.text "ordinal") =
      false := rfl
  have unstarted : manifest.spanTo name time = 0 := by
    have missing := Entries.find?_eq_none_of_not_mem (Scalar.exact_text name) absent
    rw [spanTo, entryOf, missing]
    rfl
  rw [withFailure, ensured_of_absent absent, withOrdinal, entryOf_withEntry absent, unnumbered,
    updated_withEntry absent, updated_withEntry absent, unstarted]
  rfl

end Fresh
end Manifest
end BuildRules
