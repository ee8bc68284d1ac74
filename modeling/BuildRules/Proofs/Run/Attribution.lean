import BuildRules.Proofs.Run.FirstFailure
import BuildRules.Proofs.Run.Mirror

/-! A failed run names the stage in course wherever it speaks of the failure. Only the details
of the failure can name another one, where the executor's own failure did. -/
namespace BuildRules.Runner

variable {runner : Runner}

/-- An answer with a stage of its own: a failure, neither to launch nor by cancellation, that has
one among its details. -/
def NamesStage : Response → Prop
  | .error (.failure failure) => failure.kind ≠ .launch ∧ failure.kind ≠ .cancelled ∧
      Record.get? failure.details "stage" ≠ none
  | _ => False

def Attributed (name : String) (payload : Payload) : Prop :=
  Record.get? payload.details "stage" = some (.text name)

theorem attributed_resolutionPayload (stage : Stage) (error : ResolutionError) :
    Attributed stage.name (resolutionPayload stage error) := by
  simp [Attributed, resolutionPayload]

theorem attributed_of_interruption {stage : Stage} {arguments : List String}
    {interruption : Interruption} (discreet : ¬ NamesStage (.error interruption))
    {payload : Payload} (told : interruptionPayload stage arguments interruption = .ok payload) :
    Attributed stage.name payload := by
  cases interruption with
  | failure failure =>
    rw [interruptionPayload] at told
    split at told
    next =>
      cases told
      simp [Attributed, Payload.stageCancelled]
    next cancelled =>
      split at told
      next =>
        obtain ⟨reason, -, told⟩ := bind_eq_ok.mp told
        cases told
        simp [Attributed, Payload.stageLaunch]
      next launch =>
        have unnamed : Record.get? failure.details "stage" = none := by
          simpa [NamesStage, launch, cancelled] using discreet
        cases told
        rw [Attributed, Record.get?_update_of_absent _ unnamed]
        simp
  | foreign kind message =>
    obtain ⟨shown, -, told⟩ := bind_eq_ok.mp told
    cases told
    simp [Attributed]

theorem attributed_of_verdict {stage : Stage} {arguments : List String} {result : CommandResult}
    {violations : List Violation} {payload : Payload}
    (told : verdict stage arguments result violations = .ok (some payload)) :
    Attributed stage.name payload := by
  rw [verdict] at told
  split at told
  next =>
    cases shown : Payload.stageExit stage.name arguments result.code with
    | error fault =>
      rw [shown] at told
      cases told
    | ok exit =>
      rw [shown] at told
      cases told
      obtain ⟨code, -, shown⟩ := bind_eq_ok.mp shown
      cases shown
      simp [Attributed]
  next =>
    split at told
    next => cases told
    next =>
      cases told
      simp [Attributed, Payload.stageLintDenied]

/-- A step that fails is put down to its stage, unless its answer names one. -/
theorem Step.attributed {step : Step} (discreet : ¬ NamesStage step.response)
    {payload : Payload} (told : step.failure runner = .ok (some payload)) :
    Attributed step.stage.name payload := by
  cases answered : step.response with
  | error interruption =>
    rw [Step.failure_of_error answered] at told
    rw [answered] at discreet
    cases shown : interruptionPayload step.stage step.command.arguments interruption with
    | error fault =>
      rw [shown] at told
      cases told
    | ok reached =>
      rw [shown] at told
      cases told
      exact attributed_of_interruption discreet shown
  | ok result =>
    rw [Step.failure_of_ok answered] at told
    exact attributed_of_verdict told

/-- What a manifest says last before it is closed: the failure of a stage, with the payload in
the stage's entry. -/
structure Closes (manifest : Manifest) (name : String) (payload : Payload) : Prop where
  events : ∃ earlier failed finished, manifest.events = earlier ++ [failed, finished] ∧
    eventKind failed = (some (.text "stage_failed"), some (.text name)) ∧
    eventKind finished = (some (.text "run_finished"), none)
  error : Record.get? (manifest.entryOf name) "error" = some (.map payload.toRecord)

theorem closes_withFailure (manifest : Manifest) (name : String) (ordinal : Int)
    (time closing : Timestamp) (status : String) (code : Value) (warnings : List String)
    (payload : Payload) (fields : List (String × Value)) :
    Closes ((manifest.withFailure name ordinal time status code warnings
      payload.toRecord).withOutcome closing fields) name payload := by
  constructor
  · refine ⟨manifest.events, _, _, List.append_assoc .., ?_, ?_⟩
    · exact eventKind_eventOf "stage_failed" time name _
    · exact eventKind_eventOf "run_finished" closing none fields
  · have kept : ∀ before : Manifest,
        (before.withOutcome closing fields).entryOf name = before.entryOf name := fun _ => rfl
    rw [kept]
    simp [Manifest.withFailure, Manifest.closingFields]

theorem Step.closes_recorded {step : Step} {payload : Payload}
    (failed : (step.outcome runner).error = some payload) (manifest : Manifest)
    (closing : Timestamp) (fields : List (String × Value)) :
    Closes ((step.recorded runner manifest).withOutcome closing fields) step.stage.name
      payload := by
  have shape : step.recorded runner manifest = (step.begun manifest).withFailure step.stage.name
      step.stage.ordinal step.finished (step.outcome runner).status.name
      (step.outcome runner).codeValue (step.outcome runner).warnings payload.toRecord := by
    rw [recorded, ended, failed]
  rw [shape]
  exact closes_withFailure ..

/-- One stage and one payload, wherever a failed run speaks of its failure: in its log, in its
outcome and in its manifest. -/
structure Blames (result : RunResult) (after : Progress) (last : StageOutcome)
    (payload : Payload) : Prop where
  log : result.failedStage? = some last
  error : last.error = some payload
  outcome : result.outcome.stage? = some last.name
  info : Record.get? result.outcome.info "error" = some (.map payload.toRecord)
  manifest : ∀ manifest, after.manifest = some manifest → Closes manifest last.name payload

section Run

variable {before after : Progress} {result : RunResult}

theorem blames_of_leaves {front : List Step} {last : Step} {payload : Payload}
    (leaves : runner.Leaves before (front ++ [last]) result after)
    (each : ∀ step ∈ front, (step.outcome runner).status = .success)
    (broken : (last.outcome runner).status ≠ .success)
    (failed : (last.outcome runner).error = some payload) :
    Blames result after (last.outcome runner) payload := by
  have ending := ending_of_failure runner each broken 0
  have log : result.stages = front.map (Step.outcome runner) ++ [last.outcome runner] := by
    rw [leaves.log, List.map_append]
    rfl
  have name := (last.reports runner).name
  refine
    { log := failedStage?_of_last log (List.forall_mem_map.mpr each) broken
      error := failed
      outcome := ?_
      info := ?_
      manifest := ?_ }
  · rw [leaves.outcome, ending, name]
    rfl
  · rw [leaves.outcome, ending]
    simp [RunOutcome.info, exitInfo, failed]
  · intro manifest present
    obtain ⟨time, recorded⟩ := leaves.manifest
    rw [recorded] at present
    obtain ⟨origin, -, rfl⟩ := Option.map_eq_some_iff.mp present
    rw [name, List.foldl_append]
    exact last.closes_recorded failed _ time _

theorem blames_of_unresolved (index : Nat) (stage : Stage) (error : ResolutionError)
    (progress : Progress) :
    Blames ⟨.failed stage.name (unresolvedInfo stage error), .stageFailed,
        [unresolvedOutcome stage error]⟩
      (runner.closed (.failed stage.name (unresolvedInfo stage error))
        (runner.refused index stage error progress))
      (unresolvedOutcome stage error) (resolutionPayload stage error) := by
  refine ⟨rfl, rfl, rfl, ?_, ?_⟩
  · simp [RunOutcome.info, unresolvedInfo, StageOutcome.errorValue, unresolvedOutcome]
  · intro manifest present
    rw [manifest_refused] at present
    obtain ⟨origin, -, rfl⟩ := Option.map_eq_some_iff.mp present
    exact closes_withFailure ..

theorem last_answer {pending : List (Stage × Command)} {front : List Step} {last : Step}
    (leaves : runner.Leaves before
      (runner.course before.commands.length before.readings pending) result after)
    (shape : runner.course before.commands.length before.readings pending = front ++ [last]) :
    after.commands.getLast? = some last.command ∧
      last.response = runner.world.executor (after.commands.length - 1) last.command := by
  have calls := leaves.calls
  rw [shape, List.map_append] at calls
  have place : (runner.course before.commands.length before.readings pending)[front.length]? =
      some last := by
    rw [shape]
    exact List.getElem?_concat_length
  have answered : last.response =
      runner.world.executor (before.commands.length + front.length) last.command := by
    rw [course_getElem? place]
    rfl
  constructor
  · rw [calls]
    simp
  · rw [answered, calls]
    simp

theorem blames_of_course {pending : List (Stage × Command)}
    (leaves : runner.Leaves before
      (runner.course before.commands.length before.readings pending) result after)
    (tells : ∀ step ∈ runner.course before.commands.length before.readings pending,
      Tells step.response)
    (ended : result.outcome.ok = false) :
    ∃ last payload, Blames result after last payload ∧
      (Attributed last.name payload ∨ ∃ command, after.commands.getLast? = some command ∧
        NamesStage (runner.world.executor (after.commands.length - 1) command)) := by
  rcases course_cases runner before.commands.length before.readings pending with
    ⟨-, successes⟩ | ⟨front, last, shape, each, broken⟩
  · rw [leaves.outcome, ending_of_successes runner successes 0] at ended
    cases ended
  · have reports := last.reports runner
    rw [shape] at tells
    obtain ⟨error, told⟩ := Step.exists_failure_iff.mpr (tells last List.mem_concat_self)
    have reached := Step.error_of_failure _ told
    obtain ⟨command, answered⟩ := last_answer leaves shape
    rw [shape] at leaves
    cases error with
    | none => exact absurd (reports.success.mpr reached) broken
    | some payload =>
      refine ⟨_, payload, blames_of_leaves leaves each broken reached, ?_⟩
      by_cases names : NamesStage last.response
      · exact .inr ⟨last.command, command, answered ▸ names⟩
      · rw [reports.name]
        exact .inl (last.attributed names told)

/-- A failed run puts its failure down to one stage: that of the failed entry of its log. The
details of the failure name that stage too, unless the last answer was a failure that names a stage
of its own. -/
theorem run_blames_stage_in_course (runner : Runner) (requested : Option (List Stage))
    (before : Progress) :
    (∀ result after, Returns (runner.run requested) before result after →
      result.outcome.ok = false → ∃ last payload, Blames result after last payload ∧
        (Attributed last.name payload ∨ ∃ command, after.commands.getLast? = some command ∧
          NamesStage (runner.world.executor (after.commands.length - 1) command))) ∧
    ((∃ result after, Returns (runner.run requested) before result after) ↔
      runner.Unhindered requested before) := by
  refine ⟨fun result after ran ended => ?_, returns_iff_unhindered⟩
  obtain ⟨ordered, -, returned⟩ := returned_of_returns ran
  cases returned with
  | carried _ _ passable =>
    exact blames_of_course (leaves_carried runner (runner.warned before) _).of_warned
      (fun step member => (passable.clear step member).told) ended
  | declined =>
    exact ⟨_, _, blames_of_unresolved .., .inl (attributed_resolutionPayload _ _)⟩

end Run

def usurped : Runner where
  policy := .bare "cargo"
  environment := .empty
  directory := none
  world :=
    { executor := fun _ _ =>
        .error (.failure ⟨.general, "gone", .ofFields [("stage", .text "other")], none⟩)
      clock := fun _ => .dawn false none
      logTime := fun _ => .dawn false none }

/-- The details of a failure take the executor's stage over the one in course. -/
theorem usurped_blames_another_stage :
    ∃ result after last payload,
      Returns (usurped.run (some [⟨"build", 0, none, ["build"]⟩])) (.start "run-1" none) result
        after ∧
      result.outcome.ok = false ∧ result.failedStage? = some last ∧ last.name = "build" ∧
      last.error = some payload ∧ Record.get? payload.details "stage" = some (.text "other") :=
  ⟨_, _, _, _, rfl, rfl, rfl, rfl, rfl, rfl⟩

end BuildRules.Runner
