import BuildRules.Proofs.Report.Sections
import BuildRules.Proofs.Value.Storable

namespace BuildRules.Report

open Runner

variable {setting : Setting} {created manifest : Manifest} {started : Bool} {result : RunResult}

theorem triggerLines_runRecord (setting : Setting) :
    triggerLines setting.runRecord = .ok (if setting.triggered.isEmpty then []
      else ["- **Trigger**: " ++ code ((Entries.find? setting.triggered "event").getD unknown) ++
        " on " ++ code ((Entries.find? setting.triggered "branch").getD unknown)]) := by
  have said (name : String) : textOr (tableOf setting.triggered) name unknown =
      .ok ((Entries.find? setting.triggered name).getD unknown) := by
    rw [textOr, find?_tableOf]
    cases Entries.find? setting.triggered name <;> rfl
  obtain ⟨-, -, -, trigger⟩ := setting.get?_runRecord
  have event := said "event"
  have branch := said "branch"
  rw [triggerLines, trigger]
  generalize setting.triggered = entries at event branch ⊢
  cases entries with
  | nil => rfl
  | cons first rest =>
    exact bind_eq_ok.mpr ⟨_, event, bind_eq_ok.mpr ⟨_, branch, rfl⟩⟩

theorem resultLines_of_run {outcome : RunOutcome} (reasoned : Reasoned outcome) :
    resultLines (.ofFields (outcomeFields outcome)) = .ok (outcomeText outcome) := by
  cases outcome with
  | succeeded => rfl
  | failed stage info =>
    obtain ⟨reason, given⟩ := reasoned
    have held : Record.get? (.ofFields (outcomeFields (.failed stage info))) "reason" =
        some (.text reason) := by
      simp [outcomeFields, RunOutcome.reason?, RunOutcome.info, given]
    have said : reasonOf info = reason := by rw [reasonOf, given]
    rw [outcomeText, said]
    exact bind_eq_ok.mpr ⟨stage, rfl, bind_eq_ok.mpr ⟨reason, textOr_text held, rfl⟩⟩

theorem outcomeLines_of_run (setting : Setting) {outcome : RunOutcome}
    (reasoned : Reasoned outcome) :
    outcomeLines setting.runRecord (.ofFields (outcomeFields outcome)) =
      .ok (outcomeText outcome ++ headText setting) := by
  obtain ⟨id, started, -, -⟩ := setting.get?_runRecord
  rw [outcomeLines, resultLines_of_run reasoned, textOr_text id, textOr_text started,
    triggerLines_runRecord, headText, ← List.append_assoc]
  rfl

theorem length_events (faithful : Faithful created manifest started result)
    (arguments : ∀ outcome ∈ result.stages, StartedWith started outcome) :
    manifest.events.length = eventTotal result.stages := by
  have kinds := congrArg List.length faithful.events
  rw [List.length_map, List.length_append, List.length_flatMap, List.length_singleton] at kinds
  rw [kinds, eventTotal]
  congr 2
  apply List.map_congr_left
  intro outcome member
  have given := arguments outcome member
  unfold StartedWith at given
  rw [given]
  cases started <;> rfl

theorem traceLines_of_run (setting : Setting) {events : Nat} {stages : List StageOutcome}
    (counted : events = eventTotal stages) :
    traceLines setting.runRecord setting.inputsRecord events = .ok (traceText setting stages) := by
  have identity : textOr setting.inputsRecord "policy_hash" unknown = .ok setting.identity := rfl
  obtain ⟨-, -, version, -⟩ := setting.get?_runRecord
  rw [traceLines, identity, textOr_text version, write_runRecord, counted]
  rfl

def fieldsOf (manifest : Manifest) : Record :=
  .ofFields
    [("run", .map manifest.run), ("inputs", .map manifest.inputs),
      ("stages", .map (manifest.stages.map fun entry => (entry.1, .map entry.2))),
      ("events", .list (manifest.events.map .map)), ("outcome", .map manifest.outcome)]

theorem sectionOf_fieldsOf (manifest : Manifest) :
    sectionOf (fieldsOf manifest) "run" = manifest.run ∧
      sectionOf (fieldsOf manifest) "inputs" = manifest.inputs ∧
      sectionOf (fieldsOf manifest) "stages" =
        manifest.stages.map (fun entry => (entry.1, .map entry.2)) ∧
      sectionOf (fieldsOf manifest) "outcome" = manifest.outcome ∧
      eventCount (fieldsOf manifest) = manifest.events.length := by
  unfold sectionOf eventCount fieldsOf
  simp

theorem generate_of_lines {first : Scalar × Value} {rest : Record} {lines : List String}
    (read : linesOf (first :: rest) = .ok lines) :
    generate (.map (first :: rest)) = .ok ("\n".intercalate lines ++ "\n") := by
  rw [generate, read]

theorem generate_of_fault {manifest : Record} {fault : Value.Fault} (filled : manifest ≠ [])
    (unread : linesOf manifest = .error fault) :
    generate (.map manifest) = .error (.shape fault) := by
  cases manifest with
  | nil => exact absurd rfl filled
  | cons first rest => rw [generate, unread]

theorem generate_of_faithful (faithful : Faithful created manifest started result)
    (creation : setting.manifest = .ok created) (reasoned : Reasoned result.outcome)
    (arguments : ∀ outcome ∈ result.stages, StartedWith started outcome)
    (ends : EndsAtFailure result.stages)
    (ascending : result.stages.Pairwise fun earlier later => earlier.ordinal < later.ordinal)
    (legible : ∀ outcome ∈ result.stages, Legible outcome) :
    generate manifest.toValue = .ok (resultText setting result) := by
  have origin := Setting.created_eq creation
  have run : manifest.run = setting.runRecord := by rw [faithful.run, origin]
  have inputs : manifest.inputs = setting.inputsRecord := by rw [faithful.inputs, origin]
  have outcome : manifest.outcome = Record.ofFields (outcomeFields result.outcome) :=
    faithful.outcome
  have listed := orderedStages_of_mirrors faithful.stages ascending
  have told := outcomeLines_of_run setting reasoned
  have rows := stageLines_of_mirrors faithful.stages legible
  have warned := warningLines_of_mirrors faithful.stages
  have failed := failureLines_of_mirrors faithful.stages arguments ends
  have settled : environmentLines setting.inputsRecord = .ok (environmentText setting.settings) :=
    environmentLines_of_table rfl
  have traced := traceLines_of_run setting (length_events faithful arguments)
  obtain ⟨runHeld, inputsHeld, stagesHeld, outcomeHeld, counted⟩ := sectionOf_fieldsOf manifest
  have lines : linesOf (fieldsOf manifest) = .ok (["# CI Report\n", "## Outcome"] ++
      (outcomeText result.outcome ++ headText setting) ++
      ["", "## Stages"] ++ stagesText result.stages ++
      ["", "## Lint Warnings"] ++ warningsText result.stages ++
      ["", "## Failure Details"] ++ failureText result ++
      ["", "## Environment"] ++ environmentText setting.settings ++
      ["", "## Traceability"] ++ traceText setting result.stages) := by
    rw [linesOf, runHeld, inputsHeld, stagesHeld, outcomeHeld, counted, run, inputs, outcome]
    refine bind_eq_ok.mpr ⟨manifest.stages, listed, ?_⟩
    refine bind_eq_ok.mpr ⟨_, told, ?_⟩
    refine bind_eq_ok.mpr ⟨_, rows, ?_⟩
    refine bind_eq_ok.mpr ⟨_, warned, ?_⟩
    refine bind_eq_ok.mpr ⟨_, failed, ?_⟩
    refine bind_eq_ok.mpr ⟨_, settled, ?_⟩
    exact bind_eq_ok.mpr ⟨_, traced, rfl⟩
  have grouped := List.append_assoc ["# CI Report\n", "## Outcome"] (outcomeText result.outcome)
    (headText setting)
  rw [← grouped] at lines
  exact generate_of_lines lines

/-- A stage whose ordinal has no text has no row, and its manifest no report. -/
theorem generate_of_long (faithful : Faithful created manifest started result)
    (ascending : result.stages.Pairwise fun earlier later => earlier.ordinal < later.ordinal)
    {outcome : StageOutcome} (member : outcome ∈ result.stages)
    (long : Number.isShort outcome.ordinal = false) :
    ∃ fault, generate manifest.toValue = .error fault := by
  obtain ⟨-, -, stagesHeld, -, -⟩ := sectionOf_fieldsOf manifest
  cases read : linesOf (fieldsOf manifest) with
  | error fault =>
    exact ⟨.shape fault, generate_of_fault (List.cons_ne_nil _ _) read⟩
  | ok lines =>
    rw [linesOf, stagesHeld, orderedStages_of_mirrors faithful.stages ascending] at read
    obtain ⟨stages, same, read⟩ := bind_eq_ok.mp read
    obtain rfl := Except.ok.inj same
    obtain ⟨told, -, read⟩ := bind_eq_ok.mp read
    obtain ⟨rows, listed, -⟩ := bind_eq_ok.mp read
    obtain ⟨fault, unlisted⟩ := stageLines_of_long faithful.stages member long
    rw [unlisted] at listed
    cases listed

section Steps

variable {runner : Runner} {calls readings : Nat} {pending : List (Stage × Command)}

theorem endsAtFailure_of_course (runner : Runner) (calls readings : Nat)
    (pending : List (Stage × Command)) :
    EndsAtFailure ((runner.course calls readings pending).map (Step.outcome runner)) := by
  refine ⟨?_, ?_⟩
  · intro front last shape outcome member
    rcases course_cases runner calls readings pending with ⟨-, each⟩ |
      ⟨steps, final, course, each, -⟩
    · have present : outcome ∈ front ++ [last] := List.mem_append_left _ member
      rw [← shape] at present
      obtain ⟨step, stepped, rfl⟩ := List.mem_map.mp present
      exact each step stepped
    · rw [course, List.map_append] at shape
      have same : steps.map (Step.outcome runner) = front := (List.append_inj' shape rfl).1
      rw [← same] at member
      obtain ⟨step, present, rfl⟩ := List.mem_map.mp member
      exact each step present
  · intro outcome member
    obtain ⟨step, -, rfl⟩ := List.mem_map.mp member
    exact (step.reports runner).success

theorem startedWith_of_prepared (each : ∀ entry ∈ pending, runner.Prepared entry.1 entry.2) :
    ∀ outcome ∈ (runner.course calls readings pending).map (Step.outcome runner),
      StartedWith true outcome := by
  intro outcome member
  obtain ⟨step, present, rfl⟩ := List.mem_map.mp member
  have entry := (course_begins runner calls readings pending).subset (List.mem_map_of_mem present)
  obtain ⟨arguments, -, command⟩ := each _ entry
  have given : step.command = ⟨runner.policy.toolchain :: arguments, runner.vars,
    runner.directory⟩ := command
  rw [StartedWith, (step.reports runner).arguments, given]
  rfl

theorem ascending_of_course (ascending : Stage.Ascending (pending.map Prod.fst)) :
    ((runner.course calls readings pending).map (Step.outcome runner)).Pairwise
      fun earlier later => earlier.ordinal < later.ordinal := by
  have ordinals := ascending.sublist
    ((course_begins runner calls readings pending).map Prod.fst).sublist
  rw [List.map_map, List.pairwise_map] at ordinals
  rw [List.pairwise_map]
  apply ordinals.imp
  intro earlier later less
  rw [(earlier.reports runner).ordinal, (later.reports runner).ordinal]
  exact less

/-- What comes of a command that is answered has a text, and so has the time that it took. -/
theorem legible_of_tells {step : Step} (told : Tells step.response)
    (short : Number.isShort step.stage.ordinal = true) : Legible (step.outcome runner) := by
  have reports := step.reports runner
  refine ⟨reports.ordinal ▸ short, ?_, ?_⟩
  · intro code held
    cases answered : step.response with
    | error interruption =>
      rw [Step.outcome_of_error answered] at held
      cases held
    | ok result =>
      rw [Step.outcome_of_ok answered] at held
      rw [answered] at told
      cases held
      exact told
  · rw [reports.milliseconds]
    exact Time.isShort_milliseconds _

end Steps

theorem commands_of_started {stages : List StageOutcome}
    (each : ∀ outcome ∈ stages, StartedWith started outcome) :
    (stages.map StageOutcome.arguments).filter (fun arguments => !arguments.isEmpty) =
      if started then stages.map StageOutcome.arguments else [] := by
  have given : ∀ arguments ∈ stages.map StageOutcome.arguments, arguments.isEmpty = !started := by
    intro arguments member
    obtain ⟨outcome, present, rfl⟩ := List.mem_map.mp member
    exact each outcome present
  cases started with
  | true =>
    rw [if_pos rfl, List.filter_eq_self]
    intro arguments member
    rw [given arguments member]
    rfl
  | false =>
    rw [if_neg Bool.false_ne_true, List.filter_eq_nil_iff]
    intro arguments member
    rw [given arguments member]
    exact Bool.false_ne_true

section Ways

variable {runner : Runner} {before after : Progress}

/-- What is reported of a run: the text of its result, unless an ordinal has no text. -/
structure Reported (setting : Setting) (before : Progress) (result : RunResult)
    (after : Progress) (manifest : Manifest) : Prop where
  kept : after.manifest = some manifest
  text : (∀ outcome ∈ result.stages, Number.isShort outcome.ordinal = true) →
    generate manifest.toValue = .ok (resultText setting result)
  untold : ∀ outcome ∈ result.stages, Number.isShort outcome.ordinal = false →
    ∃ fault, generate manifest.toValue = .error fault
  calls : after.commands.map Command.arguments = before.commands.map Command.arguments ++
    (result.stages.map StageOutcome.arguments).filter fun arguments => !arguments.isEmpty

/-- What a run that came to its stages leaves is reported like its result. -/
theorem reported_of_leaves (creation : setting.manifest = .ok created)
    (held : before.manifest = some created) {pending : List (Stage × Command)}
    (names : ((pending.map Prod.fst).map Stage.name).Nodup)
    (ascending : Stage.Ascending (pending.map Prod.fst))
    (each : ∀ entry ∈ pending, runner.Prepared entry.1 entry.2)
    (passable : runner.Passable before
      (runner.course before.commands.length before.readings pending))
    (leaves : runner.Leaves before
      (runner.course before.commands.length before.readings pending) result after) :
    ∃ manifest, Reported setting before result after manifest := by
  obtain ⟨time, recorded⟩ := leaves.manifest
  rw [held, Option.map_some] at recorded
  have kept : before.manifest.isSome = true := Option.isSome_of_eq_some held
  have faithful := faithful_of_steps (Manifest.stages_of_create creation)
    (names_of_course names runner _ _) (passable.times kept) leaves.log time
  have arguments : ∀ outcome ∈ result.stages, StartedWith true outcome :=
    leaves.log ▸ startedWith_of_prepared each
  have rising : result.stages.Pairwise fun earlier later => earlier.ordinal < later.ordinal :=
    leaves.log ▸ ascending_of_course ascending
  refine ⟨_, recorded, ?_, ?_, ?_⟩
  · intro short
    refine generate_of_faithful faithful creation ?_ arguments ?_ rising ?_
    · exact leaves.outcome ▸ reasoned_ending runner 0 _
    · exact leaves.log ▸ endsAtFailure_of_course runner _ _ pending
    · rw [leaves.log] at short ⊢
      intro outcome member
      obtain ⟨step, present, rfl⟩ := List.mem_map.mp member
      refine legible_of_tells (passable.clear step present).told ?_
      rw [← (step.reports runner).ordinal]
      exact short _ member
  · exact fun outcome member long => generate_of_long faithful rising member long
  · rw [commands_of_started arguments, leaves.calls, leaves.log, List.map_append, List.map_map,
      if_pos rfl, List.map_map]
    exact congrArg _ (List.map_congr_left fun step _ => (step.reports runner).arguments.symm)

/-- What a run leaves that could not prepare a stage is reported like its result. -/
theorem reported_of_unresolved (creation : setting.manifest = .ok created)
    (held : before.manifest = some created) (index : Nat) (stage : Stage)
    (error : ResolutionError) :
    ∃ manifest, Reported setting before (refusalOf stage error)
      (runner.declined index stage error (runner.warned before)) manifest := by
  have recorded := manifest_refused runner index stage error
    (.failed stage.name (unresolvedInfo stage error)) (runner.warned before)
  have kept : (runner.warned before).manifest = some created := held
  rw [kept, Option.map_some] at recorded
  have faithful := faithful_of_unresolved (Manifest.stages_of_create creation) stage error
    (.failed stage.name (unresolvedInfo stage error)) .stageFailed
  have rising : (refusalOf stage error).stages.Pairwise
      fun earlier later => earlier.ordinal < later.ordinal := List.pairwise_singleton _ _
  refine ⟨_, recorded, ?_, ?_, (List.append_nil _).symm⟩
  · intro short
    refine generate_of_faithful (faithful _ _) creation (reasoned_unresolved stage error) ?_ ?_
      rising ?_
    · exact List.forall_mem_singleton.mpr rfl
    · refine ⟨?_, List.forall_mem_singleton.mpr (by simp [unresolvedOutcome])⟩
      intro front last shape outcome member
      obtain ⟨rfl, -⟩ := List.append_inj' (List.nil_append _ |>.trans shape) rfl
      cases member
    · refine List.forall_mem_singleton.mpr
        ⟨short _ List.mem_cons_self, ?_, Number.isShort_zero⟩
      intro _ absent
      cases absent
  · exact fun outcome member long => generate_of_long (faithful _ _) rising member long

end Ways

def pushed : Setting where
  runId := "run-1"
  startedAt := .dawn false (some 0)
  version := "1"
  identity := "hash"
  environment := some [("RUST_BACKTRACE", "1"), ("CARGO_TERM_COLOR", "always")]
  trigger := some [("event", "push"), ("branch", "main")]

end BuildRules.Report
