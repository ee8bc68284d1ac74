import BuildRules.Proofs.Run.Return
import Mathlib.Data.List.Forall2

namespace BuildRules.Runner

variable {runner : Runner} {manifest : Manifest}

namespace Step

/-- The entry that a manifest without one for the stage gets from a step. -/
def record (runner : Runner) (step : Step) : Record :=
  let outcome := step.outcome runner
  Entries.update
    (Entries.update [] (Record.ofFields (Manifest.startingFields step.stage.name
      step.stage.ordinal step.command.arguments step.started)))
    (Record.ofFields (Manifest.closingFields outcome.status.name step.finished step.milliseconds
      outcome.codeValue outcome.warnings ++
        (outcome.error.map fun payload => ("error", .map payload.toRecord)).toList))

def events (runner : Runner) (step : Step) : List Record :=
  let outcome := step.outcome runner
  [Manifest.eventOf "stage_started" step.started step.stage.name
    [("ordinal", .int step.stage.ordinal)],
    match outcome.error with
    | none => Manifest.eventOf "stage_finished" step.finished step.stage.name
        [("status", .text "success"), ("duration_ms", .int step.milliseconds)]
    | some payload => Manifest.eventOf "stage_failed" step.finished step.stage.name
        [("error", .text payload.code)]]

theorem recorded_of_absent {step : Step} (absent : .text step.stage.name ∉ manifest.stages.keys)
    (begun : step.started.utc?.isSome) (ended : step.finished.utc?.isSome) :
    step.recorded runner manifest =
      { manifest with
        stages := manifest.stages ++ [(.text step.stage.name, step.record runner)]
        events := manifest.events ++ step.events runner } := by
  have reports := step.reports runner
  have span : (manifest.withStart step.stage.name step.stage.ordinal step.command.arguments
      step.started).spanTo step.stage.name step.finished = step.milliseconds :=
    Manifest.spanTo_withStart begun ended manifest step.stage.name step.stage.ordinal
      step.command.arguments
  obtain ⟨noted, noting⟩ : ∃ noted, noted = manifest.noted (Manifest.eventOf "stage_started"
    step.started step.stage.name [("ordinal", .int step.stage.ordinal)]) := ⟨_, rfl⟩
  have absent_noted : .text step.stage.name ∉ noted.stages.keys := noting ▸ absent
  rw [Manifest.withStart_of_absent absent, ← noting] at span
  rw [recorded, Step.begun, Step.ended, Manifest.withStart_of_absent absent, ← noting]
  unfold record events
  cases failed : (step.outcome runner).error with
  | none =>
    have success := reports.success.mpr failed
    dsimp only
    rw [Manifest.withSuccess_withEntry absent_noted, span, success, noting]
    simp only [Manifest.withEntry, Manifest.noted, failed, Option.map_none, Option.toList_none,
      List.append_nil, List.append_assoc]
    rfl
  | some payload =>
    dsimp only
    rw [Manifest.withFailure_withEntry absent_noted (by rfl), span, noting]
    simp only [Manifest.withEntry, Manifest.noted, failed, Option.map_some, Option.toList_some,
      List.append_assoc]
    rfl

/-- Steps of different stages leave one entry and two events each, in order. -/
theorem foldl_recorded (runner : Runner) {steps : List Step} (distinct : (steps.map (·.stage.name)).Nodup)
    (shown : ∀ step ∈ steps, step.started.utc?.isSome ∧ step.finished.utc?.isSome)
    (absent : ∀ step ∈ steps, .text step.stage.name ∉ manifest.stages.keys) :
    steps.foldl (fun manifest step => step.recorded runner manifest) manifest =
      { manifest with
        stages := manifest.stages ++
          steps.map fun step => (.text step.stage.name, step.record runner)
        events := manifest.events ++ steps.flatMap (events runner) } := by
  induction steps generalizing manifest with
  | nil => simp
  | cons step rest ih =>
    obtain ⟨⟨begun, ended⟩, shown⟩ := List.forall_mem_cons.mp shown
    obtain ⟨fresh, absent⟩ := List.forall_mem_cons.mp absent
    obtain ⟨different, distinct⟩ := List.nodup_cons.mp distinct
    rw [List.foldl_cons, recorded_of_absent fresh begun ended, ih distinct shown]
    · simp only [List.map_cons, List.flatMap_cons, List.append_assoc, List.cons_append,
        List.nil_append]
    · intro later member taken
      simp only [Entries.keys, List.map_append, List.map_cons, List.map_nil, List.mem_append,
        List.mem_singleton] at taken
      rcases taken with earlier | same
      · exact absent later member earlier
      · exact different (List.mem_map.mpr ⟨later, member, Scalar.text.inj same⟩)

end Step

/-- A manifest's entry says of a stage what the log says; the arguments only if the stage was
started. -/
structure Mirrors (started : Bool) (entry : Scalar × Record) (outcome : StageOutcome) :
    Prop where
  name : entry.1 = .text outcome.name
  ordinal : Record.get? entry.2 "ordinal" = some (.int outcome.ordinal)
  arguments : Record.get? entry.2 "argv" =
    if started then some (.ofTexts outcome.arguments) else none
  status : Record.get? entry.2 "status" = some (.text outcome.status.name)
  code : Record.get? entry.2 "returncode" = some outcome.codeValue
  warnings : Record.get? entry.2 "warnings" = some (.ofTexts outcome.warnings)
  milliseconds : Record.get? entry.2 "duration_ms" = some (.int outcome.milliseconds)
  error : Record.get? entry.2 "error" = outcome.error.map fun payload => .map payload.toRecord

def eventKind (event : Record) : Option Value × Option Value :=
  (Record.get? event "event_type", Record.get? event "stage")

/-- The events of a stage: its start, if it was started, and its end. -/
def eventKinds (started : Bool) (outcome : StageOutcome) : List (Option Value × Option Value) :=
  let start := (some (.text "stage_started"), some (.text outcome.name))
  let finish := if outcome.status = .success then "stage_finished" else "stage_failed"
  (if started then [start] else []) ++ [(some (.text finish), some (.text outcome.name))]

/-- A manifest that started out as another one holds what a result says. -/
structure Faithful (created manifest : Manifest) (started : Bool) (result : RunResult) :
    Prop where
  run : manifest.run = created.run
  inputs : manifest.inputs = created.inputs
  stages : List.Forall₂ (Mirrors started) manifest.stages result.stages
  events : manifest.events.map eventKind =
    result.stages.flatMap (eventKinds started) ++ [(some (.text "run_finished"), none)]
  outcome : manifest.outcome = .ofFields
    [("succeeded", .bool result.outcome.ok), ("stage", .ofText? result.outcome.stage?),
      ("reason", result.outcome.reason?.getD .null)]

theorem eventKind_eventOf (type : String) (time : Timestamp) (stage : Option String)
    (payload : List (String × Value)) :
    eventKind (Manifest.eventOf type time stage payload) =
      (some (.text type), stage.map .text) := by
  cases stage <;> rfl

theorem Step.mirrors_record (runner : Runner) (step : Step) :
    Mirrors true (.text step.stage.name, step.record runner) (step.outcome runner) := by
  have reports := step.reports runner
  unfold record Manifest.startingFields Manifest.closingFields
  rw [← reports.name, ← reports.ordinal, ← reports.arguments, ← reports.milliseconds]
  cases failed : (step.outcome runner).error <;> constructor <;> simp [failed]

theorem Step.eventKinds_events (runner : Runner) (step : Step) :
    (step.events runner).map eventKind = eventKinds true (step.outcome runner) := by
  have reports := step.reports runner
  unfold events eventKinds
  dsimp only
  split
  next failed =>
    simp [eventKind_eventOf, reports.success.mpr failed, reports.name]
  next payload failed =>
    have failure : (step.outcome runner).status ≠ .success := by
      simp [reports.success, failed]
    simp [eventKind_eventOf, failure, reports.name]

section Run

variable {created : Manifest} {result : RunResult}

theorem faithful_of_steps {steps : List Step} (empty : created.stages = [] ∧ created.events = [])
    (distinct : (steps.map (·.stage.name)).Nodup)
    (shown : ∀ step ∈ steps, step.started.utc?.isSome ∧ step.finished.utc?.isSome)
    (log : result.stages = steps.map (Step.outcome runner)) (time : Timestamp) :
    Faithful created
      ((steps.foldl (fun manifest step => step.recorded runner manifest) created).withOutcome time
        (outcomeFields result.outcome)) true result := by
  have absent : ∀ step ∈ steps, .text step.stage.name ∉ created.stages.keys := by
    intro step _
    simp [empty.1, Entries.keys]
  have recorded := Step.foldl_recorded runner distinct shown absent
  rw [empty.1, empty.2, List.nil_append, List.nil_append] at recorded
  rw [recorded]
  refine ⟨rfl, rfl, ?_, ?_, rfl⟩
  · rw [log]
    refine List.forall₂_map_left_iff.mpr (List.forall₂_map_right_iff.mpr ?_)
    exact List.forall₂_same.mpr fun step _ => step.mirrors_record runner
  · have kinds : (steps.flatMap (Step.events runner)).map eventKind =
        (steps.map (Step.outcome runner)).flatMap (eventKinds true) := by
      rw [List.map_flatMap, List.flatMap_map]
      exact List.flatMap_congr fun step _ => step.eventKinds_events runner
    rw [log, ← kinds]
    exact List.map_append

theorem mirrors_unresolved (stage : Stage) (error : ResolutionError) (time : Timestamp) :
    Mirrors false (.text stage.name, Entries.update
        (Record.ofFields [("stage", .text stage.name), ("ordinal", .int stage.ordinal)])
        (Record.ofFields (Manifest.closingFields "failed" time 0 .null [] ++
          [("error", .map (resolutionPayload stage error).toRecord)])))
      (unresolvedOutcome stage error) := by
  unfold Manifest.closingFields
  constructor <;> simp [unresolvedOutcome, StageStatus.name, StageOutcome.codeValue,
    StageOutcome.warnings, Violation.warnings]

/-- The one entry of a run whose stages do not all resolve. -/
theorem faithful_of_unresolved (empty : created.stages = [] ∧ created.events = [])
    (stage : Stage) (error : ResolutionError) (outcome : RunOutcome) (state : RunState)
    (failedAt time : Timestamp) :
    Faithful created
      ((failed (unresolvedOutcome stage error) failedAt created).withOutcome time
        (outcomeFields outcome)) false ⟨outcome, state, [unresolvedOutcome stage error]⟩ := by
  have absent : .text stage.name ∉ created.stages.keys := by simp [empty.1, Entries.keys]
  have failure : failed (unresolvedOutcome stage error) failedAt created = _ :=
    Manifest.withFailure_of_absent absent stage.ordinal failedAt "failed" .null []
      (resolutionPayload stage error).toRecord
  rw [failure]
  refine ⟨rfl, rfl, ?_, ?_, rfl⟩
  · simp only [Manifest.withOutcome, Manifest.withEntry, Manifest.noted, empty.1, List.nil_append]
    exact .cons (mirrors_unresolved stage error failedAt) .nil
  · simp only [Manifest.withOutcome, Manifest.withEntry, Manifest.noted, empty.2, List.nil_append,
      List.cons_append, List.map_cons, List.map_nil, eventKind_eventOf]
    rfl

end Run

end BuildRules.Runner
