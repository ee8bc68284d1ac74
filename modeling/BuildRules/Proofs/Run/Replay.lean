import BuildRules.Proofs.Run.Return

namespace BuildRules.Manifest

/-- A recording with what it is given. -/
inductive Call where
  | started (stage : String) (ordinal arguments : Value) (time : Timestamp)
  | finished (stage : String) (time : Timestamp) (code warnings : Value)
  | failed (stage : String) (time : Timestamp) (status error code warnings ordinal : Value)
  | closed (time : Timestamp) (outcome : Value)

namespace Call

def perform : Call → Recording Unit
  | started stage ordinal arguments time => stageStarted (.text stage) ordinal arguments time
  | finished stage time code warnings => stageFinished (.text stage) time code warnings
  | failed stage time status error code warnings ordinal =>
    stageFailed (.text stage) time status error code warnings ordinal
  | closed time outcome => recordOutcome time outcome

def stage? : Call → Option String
  | started stage _ _ _ => some stage
  | finished stage _ _ _ => some stage
  | failed stage _ _ _ _ _ _ => some stage
  | closed _ _ => none

def time : Call → Timestamp
  | started _ _ _ time => time
  | finished _ time _ _ => time
  | failed _ time _ _ _ _ _ => time
  | closed time _ => time

/-- The name of the event that the call adds. -/
def type : Call → String
  | started _ _ _ _ => "stage_started"
  | finished _ _ _ _ => "stage_finished"
  | failed _ _ _ _ _ _ _ => "stage_failed"
  | closed _ _ => "run_finished"

/-- The event of the call, with what it says. -/
def event (call : Call) (payload : Record) : Record :=
  eventWith call.type call.time call.stage? payload

/-- What a stage without an entry begins with. -/
def base : Call → List (String × Value)
  | finished stage _ _ _ => [("stage", .text stage)]
  | failed stage _ _ _ _ _ _ => [("stage", .text stage)]
  | _ => []

end Call

/-- The ordinal that a failure gives to an entry without one. -/
def missingOrdinal (entry : Record) (ordinal : Value) : List (String × Value) :=
  if ordinal.isNull || (Record.get? entry "ordinal").isSome then [] else [("ordinal", ordinal)]

/-- What a call sets in the entry of its stage, as it finds it, and what its event says. -/
inductive Sets (entry : Record) : Call → List (String × Value) → List (String × Value) → Prop where
  | started {stage : String} {ordinal arguments : Value} {time : Timestamp} {items : List Value}
      (listed : arguments.sequence = .ok items) :
      Sets entry (.started stage ordinal arguments time)
        [("stage", .text stage), ("ordinal", ordinal), ("argv", .list items),
          ("status", .text "running"), ("started_at", .text time.utcIso)]
        [("ordinal", ordinal)]
  | finished {stage : String} {time : Timestamp} {code warnings : Value} {items : List Value}
      {milliseconds : Int} (listed : (warnings.orElse (.list [])).sequence = .ok items)
      (measured : durationFrom entry time = .ok milliseconds) :
      Sets entry (.finished stage time code warnings)
        (endingFields (.text "success") time milliseconds code items)
        [("status", .text "success"), ("duration_ms", .int milliseconds)]
  | failed {stage : String} {time : Timestamp} {status code warnings ordinal : Value}
      {error : Record} {items : List Value} {milliseconds : Int}
      (listed : (warnings.orElse (.list [])).sequence = .ok items)
      (measured : durationFrom entry time = .ok milliseconds) :
      Sets entry (.failed stage time status (.map error) code warnings ordinal)
        (missingOrdinal entry ordinal ++ endingFields status time milliseconds code items ++
          [("error", .map error)])
        [("error", (Record.get? error "type").getD .null)]

/-- The manifest after a call about a stage. -/
def recorded (before : Manifest) (call : Call) (name : String)
    (fields payload : List (String × Value)) : Manifest :=
  ((before.ensured name call.base).updated name fields).noted (call.event (.ofFields payload))

section Performed

variable {before after : Manifest} {call : Call} {name : String} {time : Timestamp}
variable {fields payload : List (String × Value)}

theorem ok_of_lift {α : Type} {result : Except Value.Fault α} {value : α}
    (ok : lift result = .ok value) : result = .ok value := by
  cases result with
  | error fault => cases ok
  | ok found =>
    cases ok
    rfl

/-- An end takes a time that a clock shows, warnings that are a sequence, and a start that can be
measured from. -/
theorem of_closing {entry : Record} {status code warnings : Value} {result : Int × Record}
    (closed : closing entry status time code warnings = .ok result) :
    time.utc?.isSome ∧ ∃ items milliseconds,
      (warnings.orElse (.list [])).sequence = .ok items ∧
      durationFrom entry time = .ok milliseconds := by
  obtain ⟨text, written, closed⟩ := bind_eq_ok.mp closed
  obtain ⟨milliseconds, measured, closed⟩ := bind_eq_ok.mp closed
  obtain ⟨items, listed, -⟩ := bind_eq_ok.mp closed
  exact ⟨shown_of_utcText written, items, milliseconds, ok_of_lift listed, measured⟩

theorem updated_updated (manifest : Manifest) (name : String)
    (first second : List (String × Value)) :
    (manifest.updated name first).updated name second =
      manifest.updated name (first ++ second) := by
  have exact := Scalar.exact_text name
  rw [updated, entryOf_updated, updated, updated, Entries.insert_insert_self exact,
    ← Entries.update_append, Record.ofFields, Record.ofFields, ← List.map_append]
  rfl

/-- A missing ordinal is one more field of the end. -/
theorem numbered_updated (manifest : Manifest) (name : String) (ordinal : Value)
    (fields : List (String × Value)) :
    (manifest.numbered name ordinal).updated name fields =
      manifest.updated name (missingOrdinal (manifest.entryOf name) ordinal ++ fields) := by
  rw [numbered, missingOrdinal]
  cases given : ordinal.isNull with
  | true => rfl
  | false =>
    rw [if_neg (by decide), updated_updated]
    rfl

theorem missingOrdinal_ensured (manifest : Manifest) (name : String) (ordinal : Value) :
    missingOrdinal ((manifest.ensured name [("stage", .text name)]).entryOf name) ordinal =
      missingOrdinal (manifest.entryOf name) ordinal := by
  rw [missingOrdinal, missingOrdinal, get?_entryOf_ensured manifest name "ordinal" _ rfl]

/-- A call about a stage succeeds at a time that a clock shows, if there is something to set. -/
theorem Sets.returns (sets : Sets (before.entryOf name) call fields payload)
    (about : call.stage? = some name) (shown : call.time.utc?.isSome) :
    Returns call.perform before () (before.recorded call name fields payload) := by
  cases sets with
  | started listed =>
    obtain rfl := Option.some.inj about
    exact started_returns shown listed
  | finished listed measured =>
    obtain rfl := Option.some.inj about
    exact finished_returns shown measured listed _
  | @failed stage time status code warnings ordinal error items milliseconds listed measured =>
    obtain rfl := Option.some.inj about
    have ended := failed_returns shown measured listed status code ordinal error
    rw [numbered_updated, missingOrdinal_ensured, ← List.append_assoc] at ended
    exact ended

theorem map_of_entries {value : Value} {record : Record} (ok : value.entries = .ok record) :
    value = .map record := by
  cases value with
  | map entries =>
    cases ok
    rfl
  | scalar leaf => cases ok
  | list items => cases ok

/-- What the end of a failure takes. -/
theorem of_endFailure {status error code warnings : Value}
    (ran : Returns (endFailure name time status error code warnings) before () after) :
    time.utc?.isSome ∧ ∃ items milliseconds record,
      (warnings.orElse (.list [])).sequence = .ok items ∧
      durationFrom (before.entryOf name) time = .ok milliseconds ∧ error = .map record := by
  have ran := ran.rest (stageAt_returns _ name)
  obtain ⟨_, closed, ran⟩ := ran.of_read
  obtain ⟨table, -, ran⟩ := ran.of_read
  have ran := ran.rest (.change _ _)
  obtain ⟨record, entered, -⟩ := ran.of_read
  obtain ⟨shown, items, milliseconds, listed, measured⟩ := of_closing closed
  exact ⟨shown, items, milliseconds, record, listed, measured, map_of_entries (ok_of_lift entered)⟩

/-- What has succeeded had something to set, and has left nothing else behind. -/
theorem sets_of_returns (ran : Returns call.perform before () after)
    (about : call.stage? = some name) :
    call.time.utc?.isSome ∧ ∃ fields payload, Sets (before.entryOf name) call fields payload ∧
      after = before.recorded call name fields payload := by
  -- what a call reads tells what it sets, and there is one manifest that it can lead to
  suffices read : call.time.utc?.isSome ∧
      ∃ fields payload, Sets (before.entryOf name) call fields payload by
    obtain ⟨shown, fields, payload, sets⟩ := read
    exact ⟨shown, fields, payload, sets, (ran.unique (sets.returns about shown)).2⟩
  cases call with
  | started stage ordinal arguments time =>
    have ran := ran.rest (.lift rfl before)
    have ran := ran.rest (ensureStage_returns before stage [])
    obtain ⟨items, listed, ran⟩ := ran.of_read
    obtain ⟨text, written, -⟩ := ran.of_read
    exact ⟨shown_of_utcText written, _, _, .started (ok_of_lift listed)⟩
  | finished stage time code warnings =>
    obtain rfl := Option.some.inj about
    have ran := ran.rest (.lift rfl before)
    have ran := ran.rest (ensureStage_returns before stage [("stage", .text stage)])
    have ran := ran.rest (stageAt_returns _ stage)
    obtain ⟨_, closed, -⟩ := ran.of_read
    obtain ⟨shown, items, milliseconds, listed, measured⟩ := of_closing closed
    rw [durationFrom_ensured] at measured
    exact ⟨shown, _, _, .finished listed measured⟩
  | failed stage time status error code warnings ordinal =>
    obtain rfl := Option.some.inj about
    have ran := (run_stageFailed ..).symm.trans ran
    obtain ⟨shown, items, milliseconds, record, listed, measured, rfl⟩ := of_endFailure ran
    rw [durationFrom_numbered, durationFrom_ensured] at measured
    exact ⟨shown, _, _, .failed listed measured⟩
  | closed time outcome => cases about

theorem closed_of_returns {outcome : Value}
    (ran : Returns (Call.closed time outcome).perform before () after) :
    time.utc?.isSome ∧ ∃ table, outcome.table = .ok table ∧
      after = { before with outcome := table }.noted ((Call.closed time outcome).event table) := by
  obtain ⟨table, read, ran⟩ := ran.of_read
  have ran := ran.rest (.change _ before)
  obtain ⟨event, made, -⟩ := ran.of_read
  obtain ⟨text, written, -⟩ := bind_eq_ok.mp made
  have shown := shown_of_utcText written
  have added := (addEvent_map_returns shown "run_finished" none table).unique ran
  exact ⟨shown, table, ok_of_lift read, added.2.symm⟩

/-- One more event, and nothing else about any other stage. -/
structure Step (call : Call) (before after : Manifest) : Prop where
  shown : call.time.utc?.isSome
  events : ∃ payload, after.events = before.events ++ [call.event payload]
  others : ∀ name, call.stage? ≠ some name →
    Entries.find? after.stages (.text name) = Entries.find? before.stages (.text name)

theorem find?_recorded_of_ne {other : String} (different : other ≠ name) :
    Entries.find? (before.recorded call name fields payload).stages (.text other) =
      Entries.find? before.stages (.text other) := by
  rw [recorded, noted, updated, Entries.find?_insert_text_of_ne different, ensured,
    Entries.insertNew]
  split
  · rfl
  · exact Entries.find?_insert_text_of_ne different

theorem step_of_returns (ran : Returns call.perform before () after) : Step call before after := by
  cases about : call.stage? with
  | some name =>
    obtain ⟨shown, fields, payload, -, rfl⟩ := sets_of_returns ran about
    refine ⟨shown, ⟨_, rfl⟩, fun other different => find?_recorded_of_ne ?_⟩
    rintro rfl
    exact different about
  | none =>
    cases call with
    | closed time outcome =>
      obtain ⟨shown, table, -, rfl⟩ := closed_of_returns ran
      exact ⟨shown, ⟨table, rfl⟩, fun _ _ => rfl⟩
    | _ => cases about

/-- What the call sets is laid over what was there. -/
theorem get?_entryOf_recorded {field : String}
    (unset : Record.get? (.ofFields call.base) field = none) :
    Record.get? ((before.recorded call name fields payload).entryOf name) field =
      (Record.get? (Entries.update [] (Record.ofFields fields)) field).or
        (Record.get? (before.entryOf name) field) := by
  rw [recorded, entryOf_noted, entryOf_updated, Record.get?_update,
    get?_entryOf_ensured before name field call.base unset]

/-- A new stage goes to the end. -/
theorem keys_recorded : (before.recorded call name fields payload).stages.keys =
    if .text name ∈ before.stages.keys then before.stages.keys
    else before.stages.keys ++ [.text name] := by
  have exact := Scalar.exact_text name
  by_cases present : .text name ∈ before.stages.keys
  · have entered : (before.ensured name call.base).stages.keys = before.stages.keys := by
      rw [ensured, Entries.insertNew]
      split
      · rfl
      · exact Entries.keys_insert_of_mem exact present
    rw [if_pos present, ← entered]
    exact Entries.keys_insert_of_mem exact (entered ▸ present)
  · rw [if_neg present, recorded, ensured_of_absent present, updated_withEntry present]
    exact List.map_append

end Performed

/-- One call after the other. -/
def replay (calls : List Call) : Recording Unit := calls.forM Call.perform

section Replayed

variable {before middle after : Manifest} {call : Call} {calls front back : List Call}

theorem replay_nil (manifest : Manifest) : Returns (replay []) manifest () manifest := rfl

theorem returns_replay_cons : Returns (replay (call :: calls)) before () after ↔
    ∃ middle, Returns call.perform before () middle ∧ Returns (replay calls) middle () after := by
  change Returns (call.perform >>= fun _ => replay calls) before () after ↔ _
  constructor
  · intro ran
    obtain ⟨_, middle, first, rest⟩ := ran.parts
    exact ⟨middle, first, rest⟩
  · rintro ⟨middle, first, rest⟩
    exact first.andThen rest

theorem returns_replay_append : Returns (replay (front ++ back)) before () after ↔
    ∃ middle, Returns (replay front) before () middle ∧ Returns (replay back) middle () after := by
  induction front generalizing before with
  | nil =>
    constructor
    · intro ran
      exact ⟨before, replay_nil before, ran⟩
    · rintro ⟨middle, none, rest⟩
      obtain ⟨-, rfl⟩ := (replay_nil before).unique none
      exact rest
  | cons call front ih =>
    rw [List.cons_append, returns_replay_cons]
    simp only [ih, returns_replay_cons]
    constructor
    · rintro ⟨first, performed, middle, later, rest⟩
      exact ⟨middle, ⟨first, performed, later⟩, rest⟩
    · rintro ⟨middle, ⟨first, performed, later⟩, rest⟩
      exact ⟨first, performed, middle, later, rest⟩

theorem returns_replay_singleton :
    Returns (replay [call]) before () after ↔ Returns call.perform before () after := by
  rw [returns_replay_cons]
  constructor
  · rintro ⟨middle, performed, none⟩
    obtain ⟨-, rfl⟩ := (replay_nil middle).unique none
    exact performed
  · intro performed
    exact ⟨after, performed, replay_nil after⟩

theorem returns_replay_split (ran : Returns (replay (front ++ call :: back)) before () after) :
    ∃ earlier later, Returns (replay front) before () earlier ∧
      Returns call.perform earlier () later ∧ Returns (replay back) later () after := by
  obtain ⟨earlier, first, ran⟩ := returns_replay_append.mp ran
  obtain ⟨later, performed, rest⟩ := returns_replay_cons.mp ran
  exact ⟨earlier, later, first, performed, rest⟩

/-- The events of the calls follow those that were there. -/
theorem events_of_replay (ran : Returns (replay calls) before () after) :
    ∃ events, after.events = before.events ++ events ∧ events.length = calls.length := by
  induction calls generalizing before with
  | nil =>
    obtain ⟨-, rfl⟩ := (replay_nil before).unique ran
    exact ⟨[], (List.append_nil _).symm, rfl⟩
  | cons call calls ih =>
    obtain ⟨middle, performed, ran⟩ := returns_replay_cons.mp ran
    obtain ⟨payload, first⟩ := (step_of_returns performed).events
    obtain ⟨events, later, count⟩ := ih ran
    refine ⟨call.event payload :: events, ?_, congrArg Nat.succ count⟩
    rw [later, first, List.append_assoc]
    rfl

/-- Calls that are not about a stage leave its entry as it is. -/
theorem find?_of_replay {name : String} (elsewhere : ∀ call ∈ calls, call.stage? ≠ some name)
    (ran : Returns (replay calls) before () after) :
    Entries.find? after.stages (.text name) = Entries.find? before.stages (.text name) := by
  induction calls generalizing before with
  | nil =>
    obtain ⟨-, rfl⟩ := (replay_nil before).unique ran
    rfl
  | cons call calls ih =>
    obtain ⟨first, elsewhere⟩ := List.forall_mem_cons.mp elsewhere
    obtain ⟨middle, performed, ran⟩ := returns_replay_cons.mp ran
    exact (ih elsewhere ran).trans ((step_of_returns performed).others name first)

/-- Calls about stages leave the outcome as it is. -/
theorem outcome_of_replay (staged : ∀ call ∈ calls, call.stage? ≠ none)
    (ran : Returns (replay calls) before () after) : after.outcome = before.outcome := by
  induction calls generalizing before with
  | nil =>
    obtain ⟨-, rfl⟩ := (replay_nil before).unique ran
    rfl
  | cons call calls ih =>
    obtain ⟨first, staged⟩ := List.forall_mem_cons.mp staged
    obtain ⟨middle, performed, ran⟩ := returns_replay_cons.mp ran
    obtain ⟨name, about⟩ := Option.ne_none_iff_exists'.mp first
    obtain ⟨-, fields, payload, -, rfl⟩ := sets_of_returns performed about
    have later := ih staged ran
    exact later

end Replayed
end BuildRules.Manifest
