import BuildRules.Proofs.Report.Printed
import BuildRules.Proofs.Run.Stopped
import BuildRules.Proofs.Run.Storable

/-! Manifests that are recorded call by call with values that can be stored and printed. All that a
call sets, and all that a failed one leaves behind, can be stored and printed as well. -/
namespace BuildRules.Report

open Value Manifest

def StoredLeaf (value : Value) : Prop :=
  value.Storable ∧ ∃ leaf, value = .scalar leaf

def StoredLeaves (value : Value) : Prop :=
  value = .null ∨ ∃ items, value = .list items ∧ ∀ item ∈ items, StoredLeaf item

def StoredOrdinal (value : Value) : Prop :=
  value = .null ∨ ∃ number, value = .int number ∧ (Number.isShort number = true)

/-- A map that is read back, with leaves under certain names. -/
def StoredMap (names : List String) (value : Value) : Prop :=
  value.Storable ∧ ∃ record, value = .map record ∧ ∀ name ∈ names, LeafAt record name

/-- What is given to a call can be stored and printed. -/
inductive Sound : Operation → Prop where
  | event {type : Value} {time : Timestamp} {stage payload : Option Value}
      (kind : type.Storable) (about : ∀ value ∈ stage, value.Storable)
      (said : ∀ value ∈ payload, value.Storable) :
      Sound (.event type time stage payload)
  | started {stage : String} {ordinal : Int} {arguments : List String} {time : Timestamp}
      (short : Number.isShort ordinal = true) :
      Sound (.recording (.started stage (.int ordinal) (.ofTexts arguments) time))
  | finished {stage : String} {time : Timestamp} {code warnings : Value}
      (coded : StoredLeaf code) (warned : StoredLeaves warnings) :
      Sound (.recording (.finished stage time code warnings))
  | failed {stage : String} {time : Timestamp} {status error code warnings ordinal : Value}
      (ended : StoredLeaf status)
      (blamed : StoredMap ["type", "message", "hint"] error)
      (coded : StoredLeaf code) (warned : StoredLeaves warnings)
      (placed : StoredOrdinal ordinal) :
      Sound (.recording (.failed stage time status error code warnings ordinal))
  | closed {time : Timestamp} {outcome : Value}
      (told : StoredMap ["stage", "reason"] outcome) :
      Sound (.recording (.closed time outcome))

/-- A field of a stage that can be printed under its name. -/
structure PrintableField (name : String) (value : Value) : Prop where
  ordinal : name = "ordinal" → ∃ number, value = .int number
  leaf : name ∈ ["status", "returncode", "duration_ms"] → ∃ leaf, value = .scalar leaf
  arguments : name = "argv" → value = .null ∨ ∃ texts, value = .ofTexts texts
  warnings : name = "warnings" →
    ∃ items, value = .list items ∧ ∀ item ∈ items, ∃ leaf, item = .scalar leaf
  error : name = "error" → ∀ error, value = .map error →
    ∀ name ∈ ["type", "message", "hint"], LeafAt error name

/-- The entry of a stage that can be stored and printed. -/
structure SoundEntry (entry : Record) : Prop where
  storable : (Value.map entry).Storable
  fields : ∀ name value, Record.get? entry name = some value → PrintableField name value

/-- A field that may be set in the entry of a stage. -/
def SoundField (field : String × Value) : Prop :=
  field.2.Storable ∧ PrintableField field.1 field.2

section Entries

variable {entry : Record} {fields : List (String × Value)} {name : String} {value : Value}

theorem SoundEntry.empty : SoundEntry [] :=
  ⟨.map (List.forall_mem_nil _) List.nodup_nil (List.forall_mem_nil _),
    fun _ _ absent => by cases absent⟩

theorem SoundEntry.insert (sound : SoundEntry entry)
    (field : SoundField (name, value)) :
    SoundEntry (Entries.insert entry (.text name) value) := by
  refine ⟨sound.storable.insert name field.1, ?_⟩
  intro other held found
  rw [Record.get?_insert] at found
  split at found
  next same =>
    cases found
    exact same ▸ field.2
  next => exact sound.fields other held found

theorem SoundEntry.update (sound : SoundEntry entry)
    (parts : ∀ field ∈ fields, SoundField field) :
    SoundEntry (Entries.update entry (Record.ofFields fields)) := by
  induction fields generalizing entry with
  | nil => exact sound
  | cons field rest ih =>
    obtain ⟨first, later⟩ := List.forall_mem_cons.mp parts
    exact ih (sound.insert first) later

theorem SoundEntry.printable (sound : SoundEntry entry) : PrintableEntry entry where
  ordinal value held := (sound.fields _ value held).ordinal rfl
  fields name member value held := (sound.fields name value held).leaf member
  arguments value held := (sound.fields _ value held).arguments rfl
  warnings value held := .inr ((sound.fields _ value held).warnings rfl)
  error error held := (sound.fields _ _ held).error rfl error rfl

theorem SoundEntry.warningsRead (sound : SoundEntry entry) : WarningsRead entry := by
  intro leaf held
  obtain ⟨_, impossible, -⟩ := (sound.fields _ _ held).warnings rfl
  cases impossible

def printedNames : List String :=
  ["ordinal", "status", "returncode", "duration_ms", "argv", "warnings", "error"]

theorem soundField_of_silent (storable : value.Storable) (silent : name ∉ printedNames) :
    SoundField (name, value) := by
  simp only [printedNames, List.mem_cons, List.not_mem_nil, or_false, not_or] at silent
  obtain ⟨ordinal, status, code, duration, arguments, warnings, error⟩ := silent
  refine ⟨storable, fun same => absurd same ordinal, fun member => ?_,
    fun same => absurd same arguments, fun same => absurd same warnings,
    fun same => absurd same error⟩
  simp only [List.mem_cons, List.not_mem_nil, or_false] at member
  rcases member with same | same | same
  · exact absurd same status
  · exact absurd same code
  · exact absurd same duration

theorem soundField_of_leaf (stored : StoredLeaf value)
    (member : name ∈ ["status", "returncode", "duration_ms"]) :
    SoundField (name, value) := by
  refine ⟨stored.1, ?_, fun _ => stored.2, ?_, ?_, ?_⟩ <;> rintro rfl <;> simp at member

theorem soundField_ordinal {number : Int}
    (short : Number.isShort number = true) :
    SoundField ("ordinal", .int number) := by
  refine ⟨.int short, fun _ => ⟨number, rfl⟩, ?_, ?_, ?_, ?_⟩ <;> simp

theorem soundField_arguments (texts : List String) :
    SoundField ("argv", .ofTexts texts) := by
  refine ⟨.ofTexts texts, ?_, ?_, fun _ => .inr ⟨texts, rfl⟩, ?_, ?_⟩ <;> simp

theorem soundField_warnings {items : List Value}
    (leaves : ∀ item ∈ items, StoredLeaf item) :
    SoundField ("warnings", .list items) := by
  refine ⟨.list fun item member => (leaves item member).1, ?_, ?_, ?_, fun _ =>
    ⟨items, rfl, fun item member => (leaves item member).2⟩, ?_⟩ <;> simp

theorem soundField_error {error : Record}
    (stored : StoredMap ["type", "message", "hint"] (.map error)) :
    SoundField ("error", .map error) := by
  obtain ⟨storable, record, same, leaves⟩ := stored
  cases same
  refine ⟨storable, ?_, ?_, ?_, ?_, fun _ other same => ?_⟩
  · simp
  · simp
  · simp
  · simp
  · cases same
    exact leaves

theorem storedLeaf_text (text : String) : StoredLeaf (.text text) :=
  ⟨.text text, .text text, rfl⟩

theorem storedMap_text {names : List String} (name content : String) :
    StoredMap names (.map [(.text name, .text content)]) := by
  refine ⟨.field name (.text content), _, rfl, fun other _ value held => ?_⟩
  have member := Entries.mem_of_find? (Scalar.exact_text other) held
  cases List.mem_singleton.mp member
  exact ⟨_, rfl⟩

theorem isShort_of_durationFrom {time : Timestamp} {milliseconds : Int}
    (measured : durationFrom entry time = .ok milliseconds) :
    Number.isShort milliseconds = true := by
  unfold durationFrom at measured
  dsimp only at measured
  split at measured
  next =>
    cases measured
    decide
  next =>
    split at measured
    next =>
      split at measured
      next => cases measured
      next =>
        split at measured
        next =>
          cases measured
          exact Time.isShort_milliseconds _
        next => cases measured
    next => cases measured

theorem soundFields_ending {status code : Value} {time : Timestamp} {milliseconds : Int}
    {items : List Value} (measured : durationFrom entry time = .ok milliseconds)
    (ended : StoredLeaf status) (coded : StoredLeaf code)
    (warned : ∀ item ∈ items, StoredLeaf item) :
    ∀ field ∈ endingFields status time milliseconds code items, SoundField field := by
  have short := isShort_of_durationFrom measured
  simp only [endingFields, List.forall_mem_cons]
  refine ⟨soundField_of_leaf ended (by simp), soundField_of_silent (.text _) (by decide),
    soundField_of_leaf ⟨.int short, .int milliseconds, rfl⟩ (by simp),
    soundField_of_leaf coded (by simp), soundField_warnings warned, List.forall_mem_nil _⟩

theorem leaves_of_sequence {warnings : Value} {items : List Value}
    (stored : StoredLeaves warnings)
    (listed : (warnings.orElse (.list [])).sequence = .ok items) :
    ∀ item ∈ items, StoredLeaf item := by
  rcases stored with rfl | ⟨others, rfl, leaves⟩
  · cases listed
    exact List.forall_mem_nil _
  · rw [orElse_list] at listed
    cases listed
    exact leaves

theorem soundFields_missingOrdinal {ordinal : Value} (placed : StoredOrdinal ordinal) :
    ∀ field ∈ missingOrdinal entry ordinal, SoundField field := by
  rw [missingOrdinal]
  split
  next => exact List.forall_mem_nil _
  next given =>
    rcases placed with rfl | ⟨number, rfl, short⟩
    · simp [isNull] at given
    · exact List.forall_mem_singleton.mpr (soundField_ordinal short)

/-- Whatever a call sets can be stored and printed. -/
theorem soundFields_of_sets {call : Call} {payload : List (String × Value)}
    (sound : Sound (.recording call)) (sets : Sets entry call fields payload) :
    ∀ field ∈ fields, SoundField field := by
  cases sets with
  | started listed =>
    cases sound with
    | started short =>
      cases listed
      simp only [List.forall_mem_cons]
      exact ⟨soundField_of_silent (.text _) (by decide), soundField_ordinal short,
        soundField_arguments _, soundField_of_leaf (storedLeaf_text _) (by simp),
        soundField_of_silent (.text _) (by decide), List.forall_mem_nil _⟩
  | finished listed measured =>
    cases sound with
    | finished coded warned =>
      exact soundFields_ending measured (storedLeaf_text _) coded (leaves_of_sequence warned listed)
  | failed listed measured =>
    cases sound with
    | failed ended blamed coded warned placed =>
      rw [List.forall_mem_append, List.forall_mem_append, List.forall_mem_singleton]
      exact ⟨⟨soundFields_missingOrdinal placed,
        soundFields_ending measured ended coded (leaves_of_sequence warned listed)⟩,
        soundField_error blamed⟩

end Entries

namespace Sound

variable {call : Call} {entry : Record} {fields payload : List (String × Value)}

theorem storable_payload (sound : Sound (.recording call))
    (sets : Sets entry call fields payload) :
    (Value.map (Record.ofFields payload)).Storable := by
  cases sets with
  | started listed =>
    cases sound with
    | started short => exact .ofFields (by simp) (List.forall_mem_singleton.mpr (.int short))
  | finished listed measured =>
    refine .ofFields (by simp) ?_
    rw [List.forall_mem_cons, List.forall_mem_singleton]
    exact ⟨.text _, .int (isShort_of_durationFrom measured)⟩
  | @failed stage time status code warnings ordinal error items milliseconds listed measured =>
    refine .ofFields (by simp) (List.forall_mem_singleton.mpr ?_)
    cases sound with
    | failed ended blamed coded warned placed =>
      cases held : Record.get? error "type" with
      | none => exact .null
      | some value =>
        have member := Entries.mem_of_find? (Scalar.exact_text "type") held
        exact (blamed.1.entries _ member).2

theorem storable_optionalField (name : String) {value : Option Value}
    (given : ∀ held ∈ value, held.Storable) :
    ((optionalField name value).map Prod.fst).Sublist [name] ∧
      ∀ field ∈ optionalField name value, field.2.Storable := by
  cases value with
  | none => exact ⟨List.nil_sublist _, List.forall_mem_nil _⟩
  | some value =>
    cases absent : value.isNull with
    | true => simp [optionalField, absent]
    | false => simpa [optionalField, absent] using given value rfl

theorem storable_event {type : Value} {time : Timestamp} {stage payload : Option Value}
    {record : Record} (sound : Sound (.event type time stage payload))
    (made : Manifest.event type time stage payload = .ok record) :
    (Value.map record).Storable := by
  obtain ⟨text, -, made⟩ := bind_eq_ok.mp made
  cases made
  cases sound with
  | event kind about said =>
    obtain ⟨stageName, stageHeld⟩ := storable_optionalField "stage" about
    obtain ⟨payloadName, payloadHeld⟩ := storable_optionalField "payload" said
    refine .ofFields ?_ ?_
    · have names : ["event_type", "timestamp", "stage", "payload"].Nodup := by decide
      rw [List.map_append, List.map_append]
      exact names.sublist (((List.Sublist.refl _).append stageName).append payloadName)
    · rw [List.forall_mem_append, List.forall_mem_append, List.forall_mem_cons,
        List.forall_mem_singleton]
      exact ⟨⟨⟨kind, .text text⟩, stageHeld⟩, payloadHeld⟩

theorem typed (sound : Sound (.recording call)) : call.Typed := by
  cases sound with
  | failed ended blamed =>
    obtain ⟨-, record, same, -⟩ := blamed
    exact ⟨record, same⟩
  | _ => trivial

theorem placed (sound : Sound (.recording call)) :
    StoredOrdinal call.givenOrdinal := by
  cases sound with
  | failed ended blamed coded warned placed => exact placed
  | _ => exact .inl rfl

end Sound

structure Reportable (manifest : Manifest) : Prop where
  run : (Value.map manifest.run).Storable
  inputs : (Value.map manifest.inputs).Storable
  names : ∀ stage ∈ manifest.stages, ∃ name, stage.1 = .text name
  distinct : manifest.stages.keys.Nodup
  entries : ∀ stage ∈ manifest.stages, SoundEntry stage.2
  events : ∀ event ∈ manifest.events, (Value.map event).Storable
  outcome : StoredMap ["stage", "reason"] (.map manifest.outcome)
  runLeaves : ∀ name ∈ ["run_id", "started_at", "buildgate_version"], LeafAt manifest.run name
  trigger : ∀ trigger, Record.get? manifest.run "trigger" = some (.map trigger) →
    ∀ name ∈ ["event", "branch"], LeafAt trigger name
  identity : LeafAt manifest.inputs "policy_hash"
  environment : ∀ settings, Record.get? manifest.inputs "environment" = some (.map settings) →
    ∀ setting ∈ settings, ∃ text, setting.2 = .text text

namespace Reportable

variable {manifest before after : Manifest} {entry event : Record} {name : String}

theorem storable (reportable : Reportable manifest) :
    manifest.toValue.Storable := by
  have stages := storable_stages reportable.names reportable.distinct fun stage member =>
    (reportable.entries stage member).storable
  exact storable_toValue reportable.run reportable.inputs stages reportable.events
    reportable.outcome.1

theorem printable (reportable : Reportable manifest) : Printable (fieldsOf manifest) := by
  obtain ⟨run, inputs, stages, outcome, -⟩ := sectionOf_fieldsOf manifest
  refine ⟨run ▸ reportable.runLeaves, run ▸ reportable.trigger, inputs ▸ reportable.identity,
    inputs ▸ reportable.environment, ?_, ?_⟩
  · intro stage member entry held
    rw [stages] at member
    obtain ⟨source, present, rfl⟩ := List.mem_map.mp member
    cases held
    exact (reportable.entries source present).printable
  · obtain ⟨-, record, same, leaves⟩ := reportable.outcome
    cases same
    exact outcome ▸ leaves

theorem noted (reportable : Reportable manifest)
    (storable : (Value.map event).Storable) :
    Reportable (manifest.noted event) where
  __ := reportable
  events other member := by
    rcases List.mem_append.mp member with earlier | last
    · exact reportable.events other earlier
    · exact List.mem_singleton.mp last ▸ storable

theorem withEntryAt (reportable : Reportable manifest) (sound : SoundEntry entry) :
    Reportable (manifest.withEntryAt name entry) where
  __ := reportable
  names stage member := by
    rcases Entries.mem_insert_of_exact (Scalar.exact_text name) member with earlier | rfl
    · exact reportable.names stage earlier
    · exact ⟨name, rfl⟩
  distinct := Entries.nodup_keys_insert (Scalar.exact_text name) reportable.distinct
  entries stage member := by
    rcases Entries.mem_insert_of_exact (Scalar.exact_text name) member with earlier | rfl
    · exact reportable.entries stage earlier
    · exact sound

variable {operation : Operation} {operations : List Operation} {fault : Manifest.Fault}

theorem begun (reportable : Reportable manifest) (call : Call) (name : String) :
    SoundEntry
      ((Entries.find? manifest.stages (.text name)).getD (Record.ofFields call.base)) := by
  cases found : Entries.find? manifest.stages (.text name) with
  | some entry =>
    exact reportable.entries _ (Entries.mem_of_find? (Scalar.exact_text name) found)
  | none =>
    have named (stage : String) : SoundEntry (Record.ofFields [("stage", .text stage)]) :=
      SoundEntry.empty.insert
        (soundField_of_silent (.text stage) (show "stage" ∉ printedNames by decide))
    cases call with
    | started => exact .empty
    | finished stage => exact named stage
    | failed stage => exact named stage
    | closed => exact .empty

theorem of_returns (reportable : Reportable before) (sound : Sound operation)
    (ran : Returns operation.perform before () after) : Reportable after := by
  cases operation with
  | event type time stage payload =>
    obtain ⟨record, built, ran⟩ := ran.of_read
    obtain ⟨-, rfl⟩ := (Returns.change _ _).unique ran
    exact reportable.noted (sound.storable_event built)
  | recording call =>
    cases about : call.stage? with
    | some name =>
      obtain ⟨-, fields, payload, sets, rfl⟩ := sets_of_returns ran about
      rw [recorded_eq]
      have entry := (reportable.begun call name).update (soundFields_of_sets sound sets)
      exact (reportable.withEntryAt entry).noted
        (Runner.storable_eventWith _ _ _ (sound.storable_payload sets))
    | none =>
      cases call with
      | closed time outcome =>
        obtain ⟨-, table, read, rfl⟩ := closed_of_returns ran
        cases sound with
        | closed told =>
          obtain ⟨storable, record, rfl, leaves⟩ := id told
          cases read
          have replaced : Reportable { before with outcome := table } :=
            { reportable with outcome := told }
          exact replaced.noted (Runner.storable_eventWith _ _ _ storable)
      | _ => cases about

theorem of_stops (reportable : Reportable before) (sound : Sound operation)
    (stopped : Stops operation.perform before fault after) : Reportable after := by
  cases operation with
  | event type time stage payload =>
    obtain rfl | ⟨record, made, stopped⟩ := stopped.of_read
    · exact reportable
    · exact absurd (.change _ _) stopped.not_returns
  | recording call =>
    cases about : call.stage? with
    | some name =>
      -- an error that is a map lets no call get past the entry of its stage
      rcases of_stopped_call stopped about with rfl | ⟨untyped, -⟩
      · have entry := reportable.begun call name
        exact reportable.withEntryAt (entry.update (soundFields_missingOrdinal sound.placed))
      · exact absurd sound.typed untyped
    | none =>
      cases call with
      | closed time outcome =>
        obtain rfl | ⟨table, hidden, read, rfl⟩ := of_stopped_outcome stopped
        · exact reportable
        · cases sound with
          | closed told =>
            obtain ⟨storable, record, rfl, leaves⟩ := id told
            cases read
            exact { reportable with outcome := told }
      | _ => cases about

/-- Whatever becomes of the calls, the manifest can be stored and printed. -/
theorem attempts (reportable : Reportable before)
    (sound : ∀ operation ∈ operations, Sound operation) :
    Reportable (BuildRules.attempts Operation.perform before operations) := by
  induction operations generalizing before with
  | nil => exact reportable
  | cons operation rest ih =>
    obtain ⟨first, later⟩ := List.forall_mem_cons.mp sound
    cases ran : operation.perform.run.run before with
    | mk outcome after =>
      cases outcome with
      | ok value =>
        rw [attempts_cons_of_returns ran]
        exact ih (reportable.of_returns first ran) later
      | error fault =>
        rw [attempts_cons_of_stops ran]
        exact ih (reportable.of_stops first ran) later

end Reportable

structure SoundStart (runId version identity environment trigger : Value) :
    Prop where
  runId : StoredLeaf runId
  version : StoredLeaf version
  identity : StoredLeaf identity
  environment : environment = .null ∨
    ∃ settings, environment = .map (tableOf settings) ∧ (settings.map Prod.fst).Nodup
  trigger : trigger = .null ∨ StoredMap ["event", "branch"] trigger

section Created

variable {runId version identity environment trigger : Value} {startedAt : Timestamp}
  {fresh : Manifest} {started : String} {settings : List (String × String)} {name : String}

theorem leafAt_of_scalar {record : Record} {value : Value}
    (scalar : ∃ leaf, value = .scalar leaf) (held : Record.get? record name = some value) :
    LeafAt record name := by
  intro other found
  cases held.symm.trans found
  exact scalar

/-- A new manifest, with or without a trigger. -/
theorem reportable_fresh {triggered : List (String × Value)}
    (sound : SoundStart runId version identity environment trigger)
    (distinct : (settings.map Prod.fst).Nodup)
    (shape : triggered = [] ∨
      ∃ record, triggered = [("trigger", .map record)] ∧
        StoredMap ["event", "branch"] (.map record)) :
    Reportable ⟨.ofFields ([("run_id", runId), ("started_at", .text started),
        ("buildgate_version", version)] ++ triggered),
      .ofFields [("policy_hash", identity), ("environment", .map (tableOf settings))],
      [], [], []⟩ where
  run := by
    rcases shape with rfl | ⟨record, rfl, stored⟩
    · refine .ofFields (by simp) ?_
      simp only [List.append_nil, List.forall_mem_cons]
      exact ⟨sound.runId.1, .text started, sound.version.1, List.forall_mem_nil _⟩
    · refine .ofFields (by simp) ?_
      simp only [List.cons_append, List.nil_append, List.forall_mem_cons]
      exact ⟨sound.runId.1, .text started, sound.version.1, stored.1, List.forall_mem_nil _⟩
  inputs := by
    refine .ofFields (by simp) ?_
    simp only [List.forall_mem_cons]
    exact ⟨sound.identity.1, Setting.storable_tableOf distinct, List.forall_mem_nil _⟩
  names := List.forall_mem_nil _
  distinct := List.nodup_nil
  entries := List.forall_mem_nil _
  events := List.forall_mem_nil _
  outcome := ⟨SoundEntry.empty.storable, [], rfl, fun _ _ _ absent => by cases absent⟩
  runLeaves := by
    simp only [List.forall_mem_cons]
    exact ⟨leafAt_of_scalar sound.runId.2 (by simp),
      leafAt_of_scalar ⟨.text started, rfl⟩ (by simp),
      leafAt_of_scalar sound.version.2 (by simp), List.forall_mem_nil _⟩
  trigger := by
    intro trigger held
    rcases shape with rfl | ⟨record, rfl, -, _, same, leaves⟩
    · simp at held
    · cases same
      simp at held
      exact held ▸ leaves
  identity := leafAt_of_scalar sound.identity.2 (by simp)
  environment := by
    intro held found setting member
    simp at found
    obtain ⟨entry, -, rfl⟩ := List.mem_map.mp (found ▸ member)
    exact ⟨entry.2, rfl⟩

theorem reportable_create
    (creation : create runId startedAt version identity environment trigger = .ok fresh)
    (sound : SoundStart runId version identity environment trigger) :
    Reportable fresh := by
  have tabled {table : Record} (read : (environment.orElse (.map [])).table = .ok table) :
      ∃ settings, table = tableOf settings ∧ (settings.map Prod.fst).Nodup := by
    rcases sound.environment with rfl | ⟨settings, rfl, distinct⟩
    · cases read
      exact ⟨[], rfl, List.nodup_nil⟩
    · rw [orElse_map] at read
      cases read
      exact ⟨settings, rfl, distinct⟩
  obtain ⟨started, -, creation⟩ := bind_eq_ok.mp creation
  dsimp only at creation
  split at creation
  next truthy =>
    obtain ⟨told, read, creation⟩ := bind_eq_ok.mp creation
    obtain ⟨run, same, creation⟩ := bind_eq_ok.mp creation
    obtain ⟨table, settled, creation⟩ := bind_eq_ok.mp creation
    obtain ⟨settings, rfl, distinct⟩ := tabled (ok_of_lift settled)
    cases same
    cases creation
    rcases id sound.trigger with rfl | ⟨storable, record, rfl, leaves⟩
    · cases truthy
    · cases ok_of_lift read
      exact reportable_fresh sound distinct (.inr ⟨told, rfl, storable, told, rfl, leaves⟩)
  next =>
    obtain ⟨run, same, creation⟩ := bind_eq_ok.mp creation
    obtain ⟨table, settled, creation⟩ := bind_eq_ok.mp creation
    obtain ⟨settings, rfl, distinct⟩ := tabled (ok_of_lift settled)
    cases same
    cases creation
    exact reportable_fresh sound distinct (.inl rfl)

end Created

end BuildRules.Report
