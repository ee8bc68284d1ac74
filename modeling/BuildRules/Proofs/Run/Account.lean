import BuildRules.Proofs.Run.Storable

namespace BuildRules

def RunLog.Storable (log : RunLog) : Prop := ∀ event ∈ log.events, (Value.map event.extra).Storable

namespace RunLog.Storable

variable {log : RunLog}

theorem add (storable : log.Storable) (time : Timestamp) (stage level message : String)
    {extra : Record} (added : (Value.map extra).Storable) :
    (log.add time stage level message extra).Storable := by
  intro event member
  rcases List.mem_append.mp member with old | new
  · exact storable event old
  · rw [List.mem_singleton.mp new]
    exact added

theorem warn (storable : log.Storable) (time : Timestamp) (stage message : String) :
    (log.warn time stage message).Storable := by
  intro event member
  rcases List.mem_append.mp member with old | new
  · exact storable event old
  · rw [List.mem_singleton.mp new]
    exact .empty

theorem warnAll {α : Type} (storable : log.Storable) (time : Timestamp) (stage : String)
    (message : α → String) (items : List α) :
    (items.foldl (fun log item => log.warn time stage (message item)) log).Storable := by
  induction items generalizing log with
  | nil => exact storable
  | cons item rest ih => exact ih (storable.warn time stage (message item))

end RunLog.Storable

namespace Runner

variable {runner : Runner} {progress : Progress}

theorem Step.storable_logged {log : RunLog} (storable : log.Storable) {step : Step}
    (answered : step.response.Storable) (calls : Nat) :
    (step.logged runner calls log).Storable := by
  have begun : (step.announced runner calls log).Storable :=
    storable.add _ _ _ _ (.field "argv" (.ofTexts step.command.arguments))
  have warned : (step.cautioned runner (calls + 1) (step.announced runner calls log)).Storable :=
    begun.warnAll (runner.world.logTime (calls + 1)) step.stage.name id _
  unfold logged accounted
  dsimp only
  split
  · exact warned.add _ _ _ _ (.field "returncode" (storable_code answered))
  · exact warned

theorem storable_warned (storable : progress.log.Storable) :
    (runner.warned progress).log.Storable := storable.warnAll _ _ _ _

theorem storable_passed (storable : progress.log.Storable) (index : Nat) {steps : List Step}
    (answered : ∀ step ∈ steps, step.response.Storable) :
    (runner.passed index steps progress).log.Storable := by
  induction steps generalizing index progress with
  | nil => exact storable
  | cons step rest ih =>
    obtain ⟨first, later⟩ := List.forall_mem_cons.mp answered
    have moved : (runner.moved .running (some index) progress).log.Storable :=
      storable.add _ _ _ _ .empty
    exact ih (Step.storable_logged moved first _) (index + 1) later

theorem storable_closed (storable : progress.log.Storable) (outcome : RunOutcome)
    (state : RunState) (current : Option Nat) :
    (runner.closed outcome (runner.moved state current progress)).log.Storable := by
  have moved : (runner.moved state current progress).log.Storable :=
    storable.add _ _ _ _ .empty
  exact moved.add _ _ _ _ .empty

/-- The outcome of a result blames its failed stage, if there is one, and says whether that was
cancelled. -/
inductive Judged (result : RunResult) : Prop
  | succeeded (outcome : result.outcome = .succeeded) (blamed : result.failedStage? = none)
  | failed {stage : StageOutcome} {info : Record} {reason : String}
      (outcome : result.outcome = .failed stage.name info)
      (blamed : result.failedStage? = some stage)
      (told : Record.get? info "reason" = some (.text reason))
      (cancelled : reason = "cancelled" ↔ stage.status = .cancelled)

theorem judged_of_leaves {before after : Progress} {calls readings : Nat}
    {pending : List (Stage × Command)} {result : RunResult}
    (leaves : runner.Leaves before (runner.course calls readings pending) result after) :
    Judged result := by
  have log := leaves.log
  have outcome := leaves.outcome
  rcases course_cases runner calls readings pending with
    ⟨-, each⟩ | ⟨front, last, shape, each, failed⟩
  · rw [ending_of_successes runner each] at outcome
    refine .succeeded outcome (failedStage?_of_successes ?_)
    rw [log]
    exact List.forall_mem_map.mpr each
  · rw [shape, ending_of_failure runner each failed] at outcome
    rw [shape, List.map_append] at log
    have blamed : result.failedStage? = some (last.outcome runner) :=
      failedStage?_of_last log (List.forall_mem_map.mpr each) failed
    rw [← (last.reports runner).name] at outcome
    refine .failed outcome blamed rfl ?_
    by_cases cancelled : (last.outcome runner).status = .cancelled
    · simp [cancelled]
    · simp [cancelled]

theorem judged_of_unresolved (stage : Stage) (error : ResolutionError) (state : RunState) :
    Judged ⟨.failed stage.name (unresolvedInfo stage error), state,
      [unresolvedOutcome stage error]⟩ :=
  .failed rfl rfl rfl (by simp [unresolvedOutcome])

theorem Judged.reasoned {result : RunResult} (judged : Judged result) :
    Reasoned result.outcome := by
  cases judged with
  | succeeded outcome blamed =>
    rw [outcome]
    trivial
  | @failed stage info reason outcome blamed told cancelled =>
    rw [outcome]
    exact ⟨reason, told⟩

/-- The reason of an outcome is a text, if there is one. -/
theorem Judged.reason {result : RunResult} (judged : Judged result) :
    ∃ reason, result.outcome.reason?.getD .null = .ofText? reason := by
  cases judged with
  | succeeded outcome blamed =>
    rw [outcome]
    exact ⟨none, rfl⟩
  | @failed stage info reason outcome blamed told cancelled =>
    rw [RunOutcome.reason?, outcome, RunOutcome.info, told]
    exact ⟨some reason, rfl⟩

theorem Judged.storable {result : RunResult} (judged : Judged result) :
    ∀ field ∈ outcomeFields result.outcome, field.2.Storable := by
  obtain ⟨reason, told⟩ := judged.reason
  simp only [outcomeFields, told, List.forall_mem_cons]
  exact ⟨.bool _, .ofText? _, .ofText? _, List.forall_mem_nil _⟩

/-- An outcome that is kept says what a result says. -/
structure Retells (outcome : Record) (result : RunResult) : Prop where
  succeeded : Record.get? outcome "succeeded" = some (.bool result.outcome.ok)
  stage : Record.get? outcome "stage" = some (.ofText? result.outcome.stage?)
  reason : Record.get? outcome "reason" = some (result.outcome.reason?.getD .null)

/-- What a run leaves for those who ask what came of it. -/
structure Accounts (setting : Report.Setting) (result : RunResult) (after : Progress)
    (manifest : Manifest) : Prop where
  held : after.manifest = some manifest
  judged : Judged result
  storable : manifest.toValue.Storable
  faithful : ∃ created started, Faithful created manifest started result
  reported : Report.generate manifest.toValue = .ok (Report.resultText setting result)
  log : after.log.Storable

/-- The manifest of a run is stored, and its outcome is read back. -/
theorem Accounts.stored {setting : Report.Setting} {result : RunResult} {after : Progress}
    {manifest : Manifest} (accounts : Accounts setting result after manifest) :
    ∃ text stored, manifest.write = .ok text ∧ Manifest.read text = .ok stored ∧
      Retells stored.outcome result := by
  obtain ⟨text, stored, wrote, read, same, -⟩ :=
    Manifest.stored_as_one_text accounts.storable.plain accounts.storable.written
  have member : ((.text "outcome", .map manifest.outcome) : Scalar × Value) ∈
      Record.ofFields [("run", .map manifest.run), ("inputs", .map manifest.inputs),
        ("stages", Manifest.stagesValue manifest.stages),
        ("events", .list (manifest.events.map .map)), ("outcome", .map manifest.outcome)] := by
    simp [Record.ofFields]
  have outcome : (Value.map manifest.outcome).Storable := (accounts.storable.entries _ member).2
  have reordered : Value.Reordered (.map manifest.outcome) (.map stored.outcome) :=
    ⟨outcome.plain, outcome.plain.of_rearranged same.outcome, outcome.written, same.outcome⟩
  obtain ⟨created, started, faithful⟩ := accounts.faithful
  rw [faithful.outcome] at reordered
  have kept {name : String} {text : Option String} (held : Record.get? (Record.ofFields
      (outcomeFields result.outcome)) name = some (.ofText? text)) :
      Record.get? stored.outcome name = some (.ofText? text) := by
    cases text <;> exact reordered.get?_scalar held
  obtain ⟨reason, told⟩ := accounts.judged.reason
  refine ⟨text, stored, wrote, read, reordered.get?_scalar rfl, kept rfl, ?_⟩
  rw [told]
  exact kept (congrArg some told)

section Whole

variable {setting : Report.Setting} {created : Manifest} {before : Progress}

/-- What a run of the stages of a policy begins with. -/
structure Begins (runner : Runner) (setting : Report.Setting) (before : Progress) : Prop where
  given : setting.Distinct
  shown : ∀ reading, (runner.world.clock reading).utc?.isSome
  oneKind : runner.OneKind
  answered : ∀ number command, (runner.world.executor number command).Storable
  names : (runner.policy.stages.map Stage.name).Nodup
  ascending : Stage.Ascending runner.policy.stages
  short : runner.policy.Short
  log : before.log.Storable

theorem accounts_of_leaves (creation : setting.manifest = .ok created)
    (held : before.manifest = some created) (begins : runner.Begins setting before)
    {pending : List (Stage × Command)} (whole : pending.map Prod.fst = runner.policy.stages)
    (each : ∀ entry ∈ pending, runner.Prepared entry.1 entry.2)
    (passable : runner.Passable before
      (runner.course before.commands.length before.readings pending)) {result : RunResult}
    {after : Progress} (leaves : runner.Leaves before
      (runner.course before.commands.length before.readings pending) result after)
    (answered : ∀ step ∈ runner.course before.commands.length before.readings pending,
      step.response.Storable) (log : after.log.Storable) :
    ∃ manifest, Accounts setting result after manifest := by
  have times := passable.times (Option.isSome_of_eq_some held)
  have stepped := course_begins runner before.commands.length before.readings pending
  have judged := judged_of_leaves leaves
  have names := begins.names
  have ascending := begins.ascending
  rw [← whole] at names ascending
  have ordinals : ∀ step ∈ runner.course before.commands.length before.readings pending,
      Number.isShort step.stage.ordinal = true := by
    intro step member
    refine begins.short.ordinals _ ?_
    rw [← whole]
    exact List.mem_map_of_mem (stepped.subset (List.mem_map_of_mem member))
  obtain ⟨manifest, reported⟩ :=
    Report.reported_of_leaves creation held names ascending each passable leaves
  have recorded := reported.kept
  obtain ⟨time, kept⟩ := leaves.manifest
  rw [held, Option.map_some, recorded] at kept
  cases kept
  have stepNames := names_of_course names runner before.commands.length before.readings
  have faithful := faithful_of_steps (Manifest.stages_of_create creation) stepNames times leaves.log
    time
  refine ⟨_, recorded, judged, ?_, ⟨_, _, faithful⟩, ?_, log⟩
  · exact storable_of_steps creation begins.given stepNames times ordinals answered time
      (by simp [outcomeFields]) judged.storable
  · refine reported.text fun outcome member => ?_
    rw [leaves.log] at member
    obtain ⟨step, present, rfl⟩ := List.mem_map.mp member
    rw [(step.reports runner).ordinal]
    exact ordinals step present

theorem exists_resolution {policy : Policy} {stage : Stage} {error : ResolutionError}
    (unresolved : policy.stageArguments stage = .error error) :
    ∃ name, policy.resolver.resolve name = .error error := by
  rw [Policy.stageArguments] at unresolved
  split at unresolved
  next name _ => exact ⟨name, unresolved⟩
  next => cases unresolved

theorem accounts_of_unresolved (creation : setting.manifest = .ok created)
    (held : before.manifest = some created) (begins : runner.Begins setting before)
    (index : Nat) {stage : Stage} {error : ResolutionError} (placed : stage ∈ runner.policy.stages)
    (unresolved : runner.policy.stageArguments stage = .error error) :
    ∃ manifest, Accounts setting (refusalOf stage error)
      (runner.declined index stage error (runner.warned before)) manifest := by
  have judged := judged_of_unresolved stage error .stageFailed
  have ordinal := begins.short.ordinals _ placed
  obtain ⟨name, failing⟩ := exists_resolution unresolved
  obtain ⟨manifest, reported⟩ := Report.reported_of_unresolved creation held index stage error
  have recorded := reported.kept
  have kept := manifest_refused runner index stage error
    (.failed stage.name (unresolvedInfo stage error)) (runner.warned before)
  rw [declined] at recorded
  rw [recorded] at kept
  have origin : (runner.warned before).manifest = some created := held
  rw [origin, Option.map_some] at kept
  cases kept
  have faithful := faithful_of_unresolved (Manifest.stages_of_create creation) stage error
    (.failed stage.name (unresolvedInfo stage error)) .stageFailed
  refine ⟨_, recorded, judged, ?_, ⟨_, _, faithful _ _⟩, ?_, ?_⟩
  · exact storable_of_unresolved creation begins.given ordinal
      (storable_resolution begins.short failing) _ _ (by simp [outcomeFields]) judged.storable
  · exact reported.text (List.forall_mem_singleton.mpr ordinal)
  · exact storable_closed (storable_warned begins.log) _ .stageFailed (some index)

theorem exists_accounts (creation : setting.manifest = .ok created)
    (held : before.manifest = some created) (fresh : before.state = .pending)
    (begins : runner.Begins setting before) :
    ∃ result after manifest, Returns (runner.run none) before result after ∧
      Accounts setting result after manifest := by
  have recordable : ∀ manifest, before.manifest = some manifest → runner.Recordable manifest := by
    intro manifest present
    cases held.symm.trans present
    exact ⟨Manifest.startsReadable_of_empty (Manifest.stages_of_create creation).1, begins.shown⟩
  have spoken := spoken_of_tells none before fun call command =>
    tells_of_storable (begins.answered call command)
  have unhindered := (unhindered_iff_spoken fresh (by rintro stages ⟨⟩) begins.oneKind
    recordable).mpr spoken
  obtain ⟨result, after, ran⟩ := returns_iff_unhindered.mpr unhindered
  obtain ⟨ordered, orders, returned⟩ := returned_of_returns ran
  obtain rfl : ordered = runner.policy.stages := orders
  cases returned with
  | @carried pending whole each passable =>
    have leaves := (leaves_carried runner (runner.warned before)
      (runner.course before.commands.length before.readings pending)).of_warned
    have answered : ∀ step ∈ runner.course before.commands.length before.readings pending,
        step.response.Storable := by
      intro step member
      obtain ⟨call, answer⟩ := answered_of_course member
      exact answer ▸ begins.answered call step.command
    obtain ⟨manifest, accounts⟩ :=
      accounts_of_leaves creation held begins whole each passable leaves answered
        (storable_closed (storable_passed (storable_warned begins.log) 0 answered) _ _ _)
    exact ⟨_, _, manifest, ran, accounts⟩
  | @declined pending stage error rest whole each unresolved =>
    have placed : stage ∈ runner.policy.stages := by simp [whole]
    obtain ⟨manifest, accounts⟩ :=
      accounts_of_unresolved creation held begins pending.length placed unresolved
    exact ⟨_, _, manifest, ran, accounts⟩

end Whole

end Runner
end BuildRules
