import BuildRules.Proofs.Run.Restart
import BuildRules.Proofs.Value.Keyed

/-! Recordings that fail, and what they have changed by then. A call about a stage enters it before
it reads what it is given, and the outcome stands before its event does. -/
namespace BuildRules.Manifest

/-- A recording, or an event by itself. -/
inductive Operation where
  | recording (call : Call)
  | event (type : Value) (time : Timestamp) (stage payload : Option Value)

namespace Operation

def perform : Operation → Recording Unit
  | recording call => call.perform
  | event type time stage payload => addEvent type time stage payload

def stage? : Operation → Option String
  | recording call => call.stage?
  | event _ _ _ _ => none

end Operation

namespace Call

/-- The ordinal that comes with a failure. -/
def givenOrdinal : Call → Value
  | failed _ _ _ _ _ _ ordinal => ordinal
  | _ => .null

/-- The error of a failure is a map. -/
def Typed : Call → Prop
  | failed _ _ _ error _ _ _ => ∃ record, error = .map record
  | _ => True

/-- The entry of a stage as a call about it has made it before it reads what it is given. -/
def begun (call : Call) (found : Option Record) : Record :=
  let entry := found.getD (.ofFields call.base)
  Entries.update entry (Record.ofFields (missingOrdinal entry call.givenOrdinal))

end Call

/-- The manifest with another entry for a stage. -/
def withEntryAt (manifest : Manifest) (name : String) (entry : Record) : Manifest :=
  { manifest with stages := Entries.insert manifest.stages (.text name) entry }

section Entered

variable {manifest before after : Manifest} {call : Call} {name : String} {fault : Fault}

theorem ensured_eq_withEntryAt (manifest : Manifest) (name : String)
    (fields : List (String × Value)) : manifest.ensured name fields =
      manifest.withEntryAt name
        ((Entries.find? manifest.stages (.text name)).getD (.ofFields fields)) := by
  rw [ensured, withEntryAt, Entries.insertNew_eq_insert]

theorem withEntryAt_withEntryAt (manifest : Manifest) (name : String) (first second : Record) :
    (manifest.withEntryAt name first).withEntryAt name second = manifest.withEntryAt name second := by
  rw [withEntryAt, withEntryAt, withEntryAt, Entries.insert_insert_self (Scalar.exact_text name)]

theorem entryOf_withEntryAt (manifest : Manifest) (name : String) (entry : Record) :
    (manifest.withEntryAt name entry).entryOf name = entry := by
  rw [entryOf, withEntryAt, Entries.find?_insert_self (Scalar.exact_text name)]
  rfl

theorem numbered_withEntryAt (manifest : Manifest) (name : String) (entry : Record)
    (ordinal : Value) : (manifest.withEntryAt name entry).numbered name ordinal =
      manifest.withEntryAt name
        (Entries.update entry (Record.ofFields (missingOrdinal entry ordinal))) := by
  cases given : ordinal.isNull with
  | true =>
    rw [numbered, missingOrdinal, given]
    rfl
  | false =>
    rw [numbered, missingOrdinal, given, if_neg (by decide), updated, entryOf_withEntryAt]
    exact withEntryAt_withEntryAt manifest name entry _

theorem find?_withEntryAt_of_ne {other : String} {entry : Record} (different : other ≠ name) :
    Entries.find? (manifest.withEntryAt name entry).stages (.text other) =
      Entries.find? manifest.stages (.text other) :=
  Entries.find?_insert_text_of_ne different

/-- A call about a stage has entered it, with the ordinal of a failure where one is missing. -/
theorem entered_eq (manifest : Manifest) (call : Call) (name : String) :
    (manifest.ensured name call.base).numbered name call.givenOrdinal =
      manifest.withEntryAt name (call.begun (Entries.find? manifest.stages (.text name))) := by
  rw [ensured_eq_withEntryAt, numbered_withEntryAt]
  rfl

/-- A call that succeeds has laid its fields over the entry that it found or began. -/
theorem recorded_eq (manifest : Manifest) (call : Call) (name : String)
    (fields payload : List (String × Value)) : manifest.recorded call name fields payload =
      (manifest.withEntryAt name (Entries.update
        ((Entries.find? manifest.stages (.text name)).getD (.ofFields call.base))
        (Record.ofFields fields))).noted (call.event (.ofFields payload)) := by
  rw [recorded, ensured_eq_withEntryAt, updated, entryOf_withEntryAt]
  exact congrArg (fun after => noted after _) (withEntryAt_withEntryAt manifest name _ _)

/-- An event stops at a time that no clock shows. -/
theorem not_shown_of_stops {type : String} {time : Timestamp} {payload : Record}
    (stage : Option String)
    (stopped : Stops (addEvent (.text type) time (stage.map .text) (some (.map payload)))
      before fault after) : ¬ time.utc?.isSome :=
  fun shown => stopped.not_returns (addEvent_map_returns shown type stage payload)

/-- The end of a failure changes nothing if it stops, unless its error is no map. -/
theorem of_stopped_failure {time : Timestamp} {status error code warnings : Value}
    (stopped : Stops (endFailure name time status error code warnings) before fault after) :
    after = before ∨
      (¬ ∃ record, error = .map record) ∧ ∃ entry, after = before.withEntryAt name entry := by
  have stopped := stopped.rest (stageAt_returns before name)
  obtain rfl | ⟨_, closed, stopped⟩ := stopped.of_read
  · exact .inl rfl
  obtain rfl | ⟨table, made, stopped⟩ := stopped.of_read
  · exact .inl rfl
  have shown := (of_closing closed).1
  have stopped := stopped.rest (.change _ before)
  -- pairs make a table, but are no map to ask for the type: by then the end is written
  by_cases typed : ∃ record, error = .map record
  · obtain ⟨record, rfl⟩ := typed
    have stopped := stopped.rest (.lift rfl _)
    exact absurd shown (not_shown_of_stops (some name) stopped)
  · obtain rfl | ⟨entries, read, stopped⟩ := stopped.of_read
    · exact .inr ⟨typed, _, rfl⟩
    · exact absurd shown (not_shown_of_stops (some name) stopped)

/-- What a call about a stage leaves behind when it stops. -/
theorem of_stopped_call (stopped : Stops call.perform before fault after)
    (about : call.stage? = some name) :
    after = before.withEntryAt name (call.begun (Entries.find? before.stages (.text name))) ∨
      ¬ call.Typed ∧ ∃ entry, after = before.withEntryAt name entry := by
  rw [← entered_eq]
  cases call with
  | started stage ordinal arguments time =>
    obtain rfl := Option.some.inj about
    left
    have stopped := stopped.rest (.lift rfl before)
    have stopped := stopped.rest (ensureStage_returns before stage [])
    obtain rfl | ⟨items, listed, stopped⟩ := stopped.of_read
    · rfl
    obtain rfl | ⟨text, written, stopped⟩ := stopped.of_read
    · rfl
    have stopped := stopped.rest (.change _ _)
    exact absurd (shown_of_utcText written) (not_shown_of_stops (some stage) stopped)
  | finished stage time code warnings =>
    obtain rfl := Option.some.inj about
    left
    have stopped := stopped.rest (.lift rfl before)
    have stopped := stopped.rest (ensureStage_returns before stage [("stage", .text stage)])
    have stopped := stopped.rest (stageAt_returns _ stage)
    obtain rfl | ⟨_, closed, stopped⟩ := stopped.of_read
    · rfl
    have stopped := stopped.rest (.change _ _)
    exact absurd (of_closing closed).1 (not_shown_of_stops (some stage) stopped)
  | failed stage time status error code warnings ordinal =>
    obtain rfl := Option.some.inj about
    have stopped := (run_stageFailed ..).symm.trans stopped
    obtain rfl | ⟨untyped, entry, rfl⟩ := of_stopped_failure stopped
    · exact .inl rfl
    · refine .inr ⟨untyped, entry, ?_⟩
      have entered := entered_eq before
        (.failed stage time status error code warnings ordinal) stage
      rw [Call.base, Call.givenOrdinal] at entered
      rw [entered, withEntryAt_withEntryAt]
  | closed time outcome => cases about

theorem begun_of_numbered {entry : Record}
    (numbered : missingOrdinal entry call.givenOrdinal = []) : call.begun (some entry) = entry := by
  rw [Call.begun, Option.getD_some, numbered]
  rfl

/-- A field that an entry has already stays. -/
theorem get?_begun {entry : Record} {field : String} {value : Value} (call : Call)
    (held : Record.get? entry field = some value) :
    Record.get? (call.begun (some entry)) field = some value := by
  by_cases numbered : missingOrdinal entry call.givenOrdinal = []
  · rw [begun_of_numbered numbered, held]
  · have other : "ordinal" ≠ field := by
      rintro rfl
      exact numbered (by simp [missingOrdinal, held])
    rw [missingOrdinal] at numbered
    split at numbered
    next => exact absurd rfl numbered
    next missing =>
      rw [Call.begun, Option.getD_some, missingOrdinal, if_neg missing, Record.get?_update_cons,
        Record.get?_update_nil, Record.get?_insert, if_neg other, held]

theorem of_stopped_outcome {time : Timestamp} {outcome : Value}
    (stopped : Stops (recordOutcome time outcome) before fault after) :
    after = before ∨ ∃ table, time.utc? = none ∧ outcome.table = .ok table ∧
      after = { before with outcome := table } := by
  obtain rfl | ⟨table, read, stopped⟩ := stopped.of_read
  · exact .inl rfl
  have stopped := stopped.rest (.change _ before)
  have hidden := not_shown_of_stops none stopped
  obtain rfl | ⟨record, made, stopped⟩ := stopped.of_read
  · exact .inr ⟨table, Option.not_isSome_iff_eq_none.mp hidden, ok_of_lift read, rfl⟩
  · exact absurd (.change _ _) stopped.not_returns

end Entered

/-- What a recording that fails has left alone. What is given to it is read after its stage is
entered, and its time after the outcome is replaced; all that it changes besides comes later. -/
structure Spared (operation : Operation) (before after : Manifest) : Prop where
  run : after.run = before.run
  inputs : after.inputs = before.inputs
  events : after.events = before.events
  outcome : after.outcome = before.outcome ∨
    ∃ time given, operation = .recording (.closed time given) ∧ time.utc? = none ∧
      given.table = .ok after.outcome
  unstaged : operation.stage? = none → after.stages = before.stages
  others : ∀ name, operation.stage? ≠ some name →
    Entries.find? after.stages (.text name) = Entries.find? before.stages (.text name)
  own : ∀ call name, operation = .recording call → call.stage? = some name → call.Typed →
    after.stages = Entries.insert before.stages (.text name)
      (call.begun (Entries.find? before.stages (.text name)))
  kept : ∀ call name entry field value, operation = .recording call → call.Typed →
    Entries.find? before.stages (.text name) = some entry → Record.get? entry field = some value →
    ∃ later, Entries.find? after.stages (.text name) = some later ∧
      Record.get? later field = some value
  same : ∀ call name entry, operation = .recording call → call.stage? = some name → call.Typed →
    Entries.find? before.stages (.text name) = some entry →
    missingOrdinal entry call.givenOrdinal = [] → after.stages = before.stages

section Sparing

variable {before after : Manifest} {operation : Operation} {call : Call} {name : String}
  {fault : Fault}

/-- What is not about a stage can have replaced the outcome only. -/
theorem spared_unstaged {outcome : Record} (about : operation.stage? = none)
    (given : outcome = before.outcome ∨
      ∃ time given, operation = .recording (.closed time given) ∧ time.utc? = none ∧
        given.table = .ok outcome) :
    Spared operation before { before with outcome } where
  run := rfl
  inputs := rfl
  events := rfl
  outcome := given
  unstaged _ := rfl
  others _ _ := rfl
  own call name is stage := by
    rw [is] at about
    cases stage.symm.trans about
  kept call name entry field value is typed found held := ⟨entry, found, held⟩
  same call name entry is stage typed found numbered := rfl

theorem spared_staged {entry : Record} (about : call.stage? = some name)
    (entered : call.Typed → entry = call.begun (Entries.find? before.stages (.text name))) :
    Spared (.recording call) before (before.withEntryAt name entry) where
  run := rfl
  inputs := rfl
  events := rfl
  outcome := .inl rfl
  unstaged none := by cases about.symm.trans none
  others other different := find?_withEntryAt_of_ne (by rintro rfl; exact different about)
  own call name is stage typed := by
    cases is
    cases about.symm.trans stage
    rw [entered typed]
    rfl
  kept call other held field value is typed found stored := by
    cases is
    by_cases own : other = name
    · subst own
      rw [found] at entered
      refine ⟨entry, Entries.find?_insert_self (Scalar.exact_text other) before.stages, ?_⟩
      rw [entered typed]
      exact get?_begun call stored
    · exact ⟨held, (find?_withEntryAt_of_ne own).trans found, stored⟩
  same call name held is stage typed found numbered := by
    cases is
    cases about.symm.trans stage
    rw [found, begun_of_numbered numbered] at entered
    rw [entered typed]
    exact Entries.insert_of_find? found

theorem spared_of_stops (stopped : Stops operation.perform before fault after) :
    Spared operation before after := by
  cases operation with
  | event type time stage payload =>
    obtain rfl | ⟨record, made, stopped⟩ := stopped.of_read
    · exact spared_unstaged rfl (.inl rfl)
    · exact absurd (.change _ _) stopped.not_returns
  | recording call =>
    cases about : call.stage? with
    | some name =>
      obtain rfl | ⟨untyped, entry, rfl⟩ := of_stopped_call stopped about
      · exact spared_staged about fun _ => rfl
      · exact spared_staged about fun typed => absurd typed untyped
    | none =>
      cases call with
      | closed time outcome =>
        obtain rfl | ⟨table, hidden, read, rfl⟩ := of_stopped_outcome stopped
        · exact spared_unstaged rfl (.inl rfl)
        · exact spared_unstaged rfl (.inr ⟨time, outcome, rfl, hidden, read⟩)
      | _ => cases about

end Sparing

/-- The first moment of the calendar, on a clock an hour ahead of UTC. -/
def beforeCalendar : Timestamp := .dawn false (some 3600000000)

/-- A failure at a time that UTC does not have leaves its stage with a name and an ordinal. -/
theorem untimed_failure_spared :
    let failure : Call := .failed "build" beforeCalendar (.text "failed")
      (.ofFields [("type", .text "StageError")]) (.int 1) .null (.int 0)
    let entry : Record := .ofFields [("stage", .text "build"), ("ordinal", .int 0)]
    Stops failure.perform bare .outsideCalendar (bare.withEntryAt "build" entry) ∧
      Spared (.recording failure) bare (bare.withEntryAt "build" entry) :=
  ⟨rfl, spared_of_stops rfl⟩

/-- A start at a time that UTC does not have stops, and its stage is there. -/
theorem untimed_start_entered :
    ¬ ∀ operation before fault after, Stops (Operation.perform operation) before fault after →
      after.stages = before.stages ∧ after.events = before.events ∧
        after.outcome = before.outcome := by
  intro atomic
  obtain ⟨stages, -, -⟩ := atomic
    (.recording (.started "build" (.int 0) (.ofTexts ["cargo"]) beforeCalendar)) bare _ _ rfl
  cases stages

end BuildRules.Manifest
