import BuildRules.Proofs.Alias.Exploration
import BuildRules.Proofs.Report.Run
import BuildRules.Proofs.Run.Stored
import BuildRules.Proofs.Value.Storable

namespace BuildRules

open Value

theorem Payload.storable_toRecord {payload : Payload}
    (details : (Value.map payload.details).Storable) :
    (Value.map payload.toRecord).Storable := by
  refine Storable.ofFields (by simp) ?_
  simp only [List.forall_mem_cons]
  exact ⟨.text _, .text _, details, .ofText? _, List.forall_mem_nil _⟩

/-- An answer whose code, details and words can be stored. -/
inductive Response.Storable : Response → Prop
  | result {result : CommandResult} (short : Number.isShort result.code = true) :
      Storable (.ok result)
  | failure {failure : Failure} (details : (Value.map failure.details).Storable) :
      Storable (.error (.failure failure))
  | foreign (kind message : String) : Storable (.error (.foreign kind (.ok message)))

/-- The integers that a policy brings into a manifest are not too long. -/
structure Policy.Short (policy : Policy) : Prop where
  ordinals : ∀ stage ∈ policy.stages, Number.isShort stage.ordinal = true
  depth : Number.isShort policy.maxDepth = true

namespace Runner

variable {runner : Runner} {manifest : Manifest}

/-- What comes of such an answer has a text. -/
theorem tells_of_storable {response : Response} (storable : response.Storable) :
    Tells response := by
  cases storable with
  | result short => exact short
  | failure details =>
    intro launch
    exact (details.written.getD (.text _)).exists_display
  | foreign kind message => exact ⟨message, rfl⟩

theorem storable_interruptionPayload {interruption : Interruption} {stage : Stage}
    {arguments : List String} {payload : Payload}
    (storable : Response.Storable (.error interruption))
    (blamed : interruptionPayload stage arguments interruption = .ok payload) :
    (Value.map payload.details).Storable := by
  cases storable with
  | @failure failure details =>
    rw [interruptionPayload] at blamed
    split at blamed
    · cases blamed
      refine Storable.ofFields (by simp) ?_
      simp only [List.forall_mem_cons]
      exact ⟨.text _, .ofTexts _, .text _, List.forall_mem_nil _⟩
    · split at blamed
      · obtain ⟨reason, -, same⟩ := bind_eq_ok.mp blamed
        cases same
        refine Storable.ofFields (by simp) ?_
        simp only [List.forall_mem_cons]
        exact ⟨.text _, .ofTexts _, .text _, List.forall_mem_nil _⟩
      · cases blamed
        exact (Storable.ofFields (by simp) (List.forall_mem_singleton.mpr (.text _))).update
          details.entries
  | foreign kind message =>
    cases blamed
    refine Storable.ofFields (by simp) ?_
    simp only [List.forall_mem_cons]
    exact ⟨.text _, .text _, List.forall_mem_nil _⟩

theorem storable_verdict {stage : Stage} {arguments : List String} {result : CommandResult}
    {violations : List Violation} {payload : Payload}
    (blamed : verdict stage arguments result violations = .ok (some payload))
    (short : Number.isShort result.code = true) : (Value.map payload.details).Storable := by
  rw [verdict] at blamed
  split at blamed
  · rw [Payload.stageExit, Number.display_eq_ok short] at blamed
    cases blamed
    refine Storable.ofFields (by simp) ?_
    simp only [List.forall_mem_cons]
    exact ⟨.text _, .ofTexts _, .int short, List.forall_mem_nil _⟩
  · split at blamed
    · cases blamed
    · cases blamed
      refine Storable.ofFields (by simp) ?_
      simp only [List.forall_mem_cons]
      exact ⟨.text _, .ofTexts _, List.forall_mem_nil _⟩

theorem storable_error {step : Step} (answered : step.response.Storable) {payload : Payload}
    (failed : (step.outcome runner).error = some payload) :
    (Value.map payload.details).Storable := by
  obtain ⟨error, told⟩ := Step.exists_failure_iff.mpr (tells_of_storable answered)
  rw [Step.error_of_failure runner told] at failed
  subst failed
  cases response : step.response with
  | ok result =>
    rw [response] at answered
    rw [Step.failure_of_ok response] at told
    cases answered with
    | result short => exact storable_verdict told short
  | error interruption =>
    rw [response] at answered
    rw [Step.failure_of_error response] at told
    cases shown : interruptionPayload step.stage step.command.arguments interruption with
    | error fault =>
      rw [shown] at told
      cases told
    | ok blamed =>
      rw [shown] at told
      cases told
      exact storable_interruptionPayload answered shown

theorem storable_code {step : Step} (answered : step.response.Storable) :
    (step.outcome runner).codeValue.Storable := by
  cases response : step.response with
  | ok result =>
    rw [response] at answered
    rw [Step.outcome_of_ok response]
    cases answered with
    | result short => exact .int short
  | error interruption =>
    rw [Step.outcome_of_error response]
    exact .null

/-- Fields that end the entry of a stage. -/
theorem storable_closing (status : String) (time : Timestamp) {milliseconds : Int}
    (short : Number.isShort milliseconds = true) {code : Value}
    (storable : code.Storable) (warnings : List String) :
    ∀ field ∈ Manifest.closingFields status time milliseconds code warnings,
      field.2.Storable := by
  simp only [Manifest.closingFields, List.forall_mem_cons]
  exact ⟨.text _, .text _, .int short, storable, .ofTexts _, List.forall_mem_nil _⟩

theorem storable_failure {error : Option Payload}
    (details : ∀ payload, error = some payload → (Value.map payload.details).Storable) :
    ∀ field ∈ (error.map fun payload => (("error", .map payload.toRecord) : String × Value)).toList,
      field.2.Storable := by
  cases error with
  | none => exact List.forall_mem_nil _
  | some payload =>
    exact List.forall_mem_singleton.mpr (Payload.storable_toRecord (details payload rfl))

theorem storable_record {step : Step} (ordinal : Number.isShort step.stage.ordinal = true)
    (answered : step.response.Storable) :
    (Value.map (step.record runner)).Storable := by
  have begun : (Value.map (Entries.update [] (Record.ofFields (Manifest.startingFields
      step.stage.name step.stage.ordinal step.command.arguments
      step.started)))).Storable := by
    refine Storable.empty.updateFields ?_
    simp only [Manifest.startingFields, List.forall_mem_cons]
    exact ⟨.text _, .int ordinal, .ofTexts _, .text _, .text _, List.forall_mem_nil _⟩
  refine begun.updateFields ?_
  rw [List.forall_mem_append]
  refine ⟨?_, ?_⟩
  · exact storable_closing _ _ (Time.isShort_milliseconds _) (storable_code answered) _
  · exact storable_failure fun payload failed => storable_error answered failed

theorem storable_eventWith (type : String) (time : Timestamp) (stage : Option String)
    {payload : Record} (held : (Value.map payload).Storable) :
    (Value.map (Manifest.eventWith type time stage payload)).Storable := by
  cases stage with
  | none =>
    refine Storable.ofFields (by simp) ?_
    simp only [Option.map_none, Option.toList_none, List.append_nil, List.cons_append,
      List.nil_append, List.forall_mem_cons]
    exact ⟨.text _, .text _, held, List.forall_mem_nil _⟩
  | some name =>
    refine Storable.ofFields (by simp) ?_
    simp only [Option.map_some, Option.toList_some, List.cons_append, List.nil_append,
      List.forall_mem_cons]
    exact ⟨.text _, .text _, .text _, held, List.forall_mem_nil _⟩

theorem storable_eventOf (type : String) (time : Timestamp) (stage : Option String)
    {payload : List (String × Value)} (distinct : (payload.map Prod.fst).Nodup)
    (parts : ∀ field ∈ payload, field.2.Storable) :
    (Value.map (Manifest.eventOf type time stage payload)).Storable :=
  storable_eventWith type time stage (.ofFields distinct parts)

theorem storable_events {step : Step}
    (ordinal : Number.isShort step.stage.ordinal = true) :
    ∀ event ∈ step.events runner, (Value.map event).Storable := by
  unfold Step.events
  rw [List.forall_mem_cons, List.forall_mem_singleton]
  refine ⟨storable_eventOf _ _ _ (by simp) (List.forall_mem_singleton.mpr (.int ordinal)), ?_⟩
  split
  · refine storable_eventOf _ _ _ (by simp) ?_
    rw [List.forall_mem_cons, List.forall_mem_singleton]
    exact ⟨.text _, .int (Time.isShort_milliseconds _)⟩
  · exact storable_eventOf _ _ _ (by simp) (List.forall_mem_singleton.mpr (.text _))

end Runner

namespace Manifest

variable {manifest : Manifest}

theorem storable_toValue (run : (Value.map manifest.run).Storable)
    (inputs : (Value.map manifest.inputs).Storable)
    (stages : (stagesValue manifest.stages).Storable)
    (events : ∀ event ∈ manifest.events, (Value.map event).Storable)
    (outcome : (Value.map manifest.outcome).Storable) : manifest.toValue.Storable :=
  ⟨plain_toValue run.plain inputs.plain stages.plain
      (fun event member => (events event member).plain) outcome.plain,
    written_toValue run.written inputs.written stages.written
      (fun event member => (events event member).written) outcome.written⟩

/-- Stages under distinct texts are stored if their entries are. -/
theorem storable_stages {stages : Entries Scalar Record}
    (names : ∀ stage ∈ stages, ∃ name, stage.1 = .text name) (distinct : stages.keys.Nodup)
    (parts : ∀ stage ∈ stages, (Value.map stage.2).Storable) :
    (stagesValue stages).Storable := by
  have keys : Entries.keys (stages.map fun stage => (stage.1, Value.map stage.2)) = stages.keys := by
    rw [Entries.keys, Entries.keys, List.map_map]
    rfl
  refine .map ?_ (keys ▸ distinct) ?_
  · intro stage member
    obtain ⟨source, present, rfl⟩ := List.mem_map.mp member
    exact names source present
  · intro stage member
    obtain ⟨source, present, rfl⟩ := List.mem_map.mp member
    exact parts source present

theorem storable_stagesValue {α : Type} {items : List α} {name : α → String}
    {entry : α → Record} (distinct : (items.map name).Nodup)
    (parts : ∀ item ∈ items, (Value.map (entry item)).Storable) :
    (stagesValue (items.map fun item => (.text (name item), entry item))).Storable := by
  have keys : Entries.keys (items.map fun item => (Scalar.text (name item), entry item)) =
      (items.map name).map .text := by
    rw [Entries.keys, List.map_map, List.map_map]
    rfl
  refine storable_stages ?_ (keys ▸ distinct.map fun _ _ => Scalar.text.inj) ?_
  · intro stage member
    obtain ⟨item, -, rfl⟩ := List.mem_map.mp member
    exact ⟨name item, rfl⟩
  · intro stage member
    obtain ⟨item, present, rfl⟩ := List.mem_map.mp member
    exact parts item present

end Manifest

namespace Report.Setting

variable {setting : Setting}

/-- No variable and no side of the trigger is given twice. -/
structure Distinct (setting : Setting) : Prop where
  settings : (setting.settings.map Prod.fst).Nodup
  triggered : (setting.triggered.map Prod.fst).Nodup

theorem storable_tableOf {entries : List (String × String)}
    (distinct : (entries.map Prod.fst).Nodup) : (Value.map (tableOf entries)).Storable := by
  have fields : tableOf entries = Record.ofFields (entries.map fun entry =>
      (entry.1, .text entry.2)) := by
    simp [tableOf, Record.ofFields]
  rw [fields]
  refine Storable.ofFields ?_ ?_
  · rwa [List.map_map]
  · intro field member
    obtain ⟨entry, -, rfl⟩ := List.mem_map.mp member
    exact .text _

theorem storable_runRecord (distinct : setting.Distinct) :
    (Value.map setting.runRecord).Storable := by
  rw [runRecord]
  split
  · rw [List.append_nil]
    refine Storable.ofFields (by simp) ?_
    simp only [List.forall_mem_cons]
    exact ⟨.text _, .text _, .text _, List.forall_mem_nil _⟩
  · change (Value.ofFields [("run_id", .text setting.runId),
      ("started_at", .text setting.startedAt.utcIso), ("buildgate_version", .text setting.version),
      ("trigger", .map (tableOf setting.triggered))]).Storable
    refine Storable.ofFields (by simp) ?_
    simp only [List.forall_mem_cons]
    exact ⟨.text _, .text _, .text _, storable_tableOf distinct.triggered, List.forall_mem_nil _⟩

theorem storable_inputsRecord (distinct : setting.Distinct) :
    (Value.map setting.inputsRecord).Storable := by
  refine Storable.ofFields (by simp) ?_
  simp only [List.forall_mem_cons]
  exact ⟨.text _, storable_tableOf distinct.settings, List.forall_mem_nil _⟩

end Report.Setting

namespace Runner

variable {runner : Runner} {setting : Report.Setting} {created : Manifest}

theorem storable_of_steps (creation : setting.manifest = .ok created)
    (given : setting.Distinct) {steps : List Step}
    (distinct : (steps.map (·.stage.name)).Nodup)
    (shown : ∀ step ∈ steps, step.started.utc?.isSome ∧ step.finished.utc?.isSome)
    (ordinals : ∀ step ∈ steps, Number.isShort step.stage.ordinal = true)
    (answered : ∀ step ∈ steps, step.response.Storable) (time : Timestamp)
    {fields : List (String × Value)} (names : (fields.map Prod.fst).Nodup)
    (outcome : ∀ field ∈ fields, field.2.Storable) :
    ((steps.foldl (fun manifest step => step.recorded runner manifest) created).withOutcome time
      fields).toValue.Storable := by
  obtain rfl := Report.Setting.created_eq creation
  rw [Step.foldl_recorded runner distinct shown (by simp [Entries.keys])]
  refine Manifest.storable_toValue ?_ ?_ ?_ ?_ ?_
  · exact Report.Setting.storable_runRecord given
  · exact Report.Setting.storable_inputsRecord given
  · exact Manifest.storable_stagesValue distinct fun step member =>
      storable_record (ordinals step member) (answered step member)
  · intro event member
    rcases List.mem_append.mp member with earlier | last
    · obtain ⟨step, present, held⟩ := List.mem_flatMap.mp earlier
      exact storable_events (ordinals step present) event held
    · rw [List.mem_singleton.mp last]
      exact storable_eventOf _ _ _ names outcome
  · exact Storable.ofFields names outcome

/-- So can that of a run whose stages do not all resolve. -/
theorem storable_of_unresolved (creation : setting.manifest = .ok created)
    (given : setting.Distinct) {stage : Stage} {error : ResolutionError}
    (ordinal : Number.isShort stage.ordinal = true)
    (details : (Value.map error.details).Storable) (failedAt time : Timestamp)
    {fields : List (String × Value)} (names : (fields.map Prod.fst).Nodup)
    (outcome : ∀ field ∈ fields, field.2.Storable) :
    ((failed (unresolvedOutcome stage error) failedAt created).withOutcome time
      fields).toValue.Storable := by
  obtain rfl := Report.Setting.created_eq creation
  have absent : .text stage.name ∉ Entries.keys ([] : Entries Scalar Record) := List.not_mem_nil
  have payload : (Value.map (resolutionPayload stage error).toRecord).Storable :=
    Payload.storable_toRecord (details.insert "stage" (.text stage.name))
  have numbered : (Value.ofFields
      [("stage", .text stage.name), ("ordinal", .int stage.ordinal)]).Storable := by
    refine Storable.ofFields (by simp) ?_
    simp only [List.forall_mem_cons]
    exact ⟨.text _, .int ordinal, List.forall_mem_nil _⟩
  have entry : (Value.map (Entries.update
      (Record.ofFields [("stage", .text stage.name), ("ordinal", .int stage.ordinal)])
      (Record.ofFields (Manifest.closingFields "failed" failedAt 0 .null [] ++
        [("error", .map (resolutionPayload stage error).toRecord)])))).Storable := by
    refine numbered.updateFields ?_
    rw [List.forall_mem_append, List.forall_mem_singleton]
    exact ⟨storable_closing _ _ (by decide) .null _, payload⟩
  -- a stage that never began has no entry to close: the failure makes its own
  have failure : failed (unresolvedOutcome stage error) failedAt
      ⟨setting.runRecord, setting.inputsRecord, [], [], []⟩ = _ :=
    Manifest.withFailure_of_absent absent stage.ordinal failedAt "failed" .null []
      (resolutionPayload stage error).toRecord
  rw [failure]
  refine Manifest.storable_toValue ?_ ?_ ?_ ?_ ?_
  · exact Report.Setting.storable_runRecord given
  · exact Report.Setting.storable_inputsRecord given
  · exact entry.field stage.name
  · intro event member
    rcases List.mem_append.mp member with earlier | last
    · rw [List.mem_singleton.mp earlier]
      exact storable_eventOf _ _ _ (by simp) (List.forall_mem_singleton.mpr (.text _))
    · rw [List.mem_singleton.mp last]
      exact storable_eventOf _ _ _ names outcome
  · exact Storable.ofFields names outcome

theorem storable_resolution {policy : Policy} {name : String} {error : ResolutionError}
    (short : policy.Short) (failed : policy.resolver.resolve name = .error error) :
    (Value.map error.details).Storable := by
  cases Resolver.resolve_genuine failed with
  | missing | dangling =>
    refine Storable.ofFields (by simp) ?_
    simp only [List.forall_mem_cons]
    exact ⟨.text _, .text _, List.forall_mem_nil _⟩
  | cyclic =>
    refine Storable.ofFields (by simp) ?_
    simp only [List.forall_mem_cons]
    exact ⟨.text _, .ofTexts _, List.forall_mem_nil _⟩
  | tooDeep =>
    refine Storable.ofFields (by simp) ?_
    simp only [List.forall_mem_cons]
    exact ⟨.text _, .ofTexts _, .int short.depth, List.forall_mem_nil _⟩

end Runner
end BuildRules
