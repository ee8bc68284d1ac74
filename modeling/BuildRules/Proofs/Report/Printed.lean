import BuildRules.Proofs.Report.Content

namespace BuildRules.Report

open Value

variable {record run outcome inputs error : Record} {listed : Listed} {stages : List Listed}

theorem exists_textOr (written : (Value.map record).Written) (name standard : String) :
    ∃ text, textOr record name standard = .ok text :=
  (written.getD (.text standard)).exists_display

theorem exists_triggerLines (written : (Value.map run).Written) :
    ∃ lines, triggerLines run = .ok lines := by
  unfold triggerLines
  split
  next => exact ⟨[], rfl⟩
  next trigger _ held =>
    obtain ⟨event, shown⟩ := exists_textOr (written.get? held) "event" unknown
    obtain ⟨branch, told⟩ := exists_textOr (written.get? held) "branch" unknown
    exact ⟨_, bind_eq_ok.mpr ⟨event, shown, bind_eq_ok.mpr ⟨branch, told, rfl⟩⟩⟩
  next => exact ⟨[], rfl⟩

theorem exists_resultLines (written : (Value.map outcome).Written) :
    ∃ lines, resultLines outcome = .ok lines := by
  unfold resultLines
  split
  next => exact ⟨_, rfl⟩
  next =>
    split
    next => exact ⟨_, rfl⟩
    next =>
      obtain ⟨stage, shown⟩ := exists_textOr written "stage" unknown
      obtain ⟨reason, told⟩ := exists_textOr written "reason" unknown
      exact ⟨_, bind_eq_ok.mpr ⟨stage, shown, bind_eq_ok.mpr ⟨reason, told, rfl⟩⟩⟩

theorem exists_outcomeLines (written : (Value.map run).Written)
    (ended : (Value.map outcome).Written) : ∃ lines, outcomeLines run outcome = .ok lines := by
  obtain ⟨result, resulted⟩ := exists_resultLines ended
  obtain ⟨name, named⟩ := exists_textOr written "run_id" unknown
  obtain ⟨started, begun⟩ := exists_textOr written "started_at" unknown
  obtain ⟨trigger, triggered⟩ := exists_triggerLines written
  exact ⟨_, bind_eq_ok.mpr ⟨result, resulted, bind_eq_ok.mpr ⟨name, named,
    bind_eq_ok.mpr ⟨started, begun, bind_eq_ok.mpr ⟨trigger, triggered, rfl⟩⟩⟩⟩⟩

structure WrittenStage (listed : Listed) : Prop where
  key : listed.1.Written
  entry : (Value.map listed.2).Written

theorem exists_exitText (written : (Value.map record).Written) :
    ∃ text, exitText record = .ok text := by
  unfold exitText
  split
  next => exact ⟨"-", rfl⟩
  next => exact ⟨"-", rfl⟩
  next value held => exact (written.get? held).exists_display

theorem exists_stageRow (written : WrittenStage listed) : ∃ row, stageRow listed = .ok row := by
  obtain ⟨ordinal, placed⟩ := exists_textOr written.entry "ordinal" "-"
  obtain ⟨name, named⟩ := written.key.exists_display
  obtain ⟨status, ended⟩ := exists_textOr written.entry "status" "unknown"
  obtain ⟨exit, coded⟩ := exists_exitText written.entry
  obtain ⟨duration, timed⟩ := exists_textOr written.entry "duration_ms" "-"
  exact ⟨_, bind_eq_ok.mpr ⟨ordinal, placed, bind_eq_ok.mpr ⟨name, named,
    bind_eq_ok.mpr ⟨status, ended, bind_eq_ok.mpr ⟨exit, coded,
      bind_eq_ok.mpr ⟨duration, timed, rfl⟩⟩⟩⟩⟩⟩

theorem exists_stageLines (written : ∀ listed ∈ stages, WrittenStage listed) :
    ∃ lines, stageLines stages = .ok lines := by
  obtain ⟨rows, each⟩ := exists_mapM fun listed member => exists_stageRow (written listed member)
  unfold stageLines
  split
  next => exact ⟨_, rfl⟩
  next => exact ⟨_, bind_eq_ok.mpr ⟨rows, each, rfl⟩⟩

/-- The warnings of a stage can be read item by item: a leaf among them is a text, or none. -/
def WarningsRead (entry : Record) : Prop :=
  ∀ leaf, Record.get? entry "warnings" = some (.scalar leaf) → (Value.scalar leaf).truthy = true →
    ∃ text, leaf = .text text

theorem exists_warnings (printable : PrintableEntry record) (read : WarningsRead record) :
    ∃ items, (((Record.get? record "warnings").getD .null).orElse (.list [])).sequence =
      .ok items := by
  cases held : Record.get? record "warnings" with
  | none => exact ⟨[], rfl⟩
  | some value =>
    rcases printable.warnings value held with ⟨leaf, rfl⟩ | ⟨items, rfl, -⟩
    · cases truthy : (Value.scalar leaf).truthy with
      | false => exact ⟨[], by simp [orElse, truthy, Value.sequence]⟩
      | true =>
        obtain ⟨text, rfl⟩ := read leaf held truthy
        exact ⟨_, by simp [orElse, truthy, Value.sequence]; rfl⟩
    · exact ⟨items, by rw [Option.getD_some, Manifest.orElse_list]; rfl⟩

theorem exists_warningLinesOf (written : WrittenStage listed) (printable : PrintableEntry listed.2)
    (read : WarningsRead listed.2) : ∃ lines, warningLinesOf listed = .ok lines := by
  obtain ⟨items, sequenced⟩ := exists_warnings printable read
  have kept : (((Record.get? listed.2 "warnings").getD .null).orElse (.list [])).Written := by
    unfold orElse
    split
    next => exact written.entry.getD .null
    next => exact .list (List.forall_mem_nil _)
  obtain ⟨name, named⟩ := written.key.exists_display
  have line : ∀ item ∈ items, ∃ text, warningLine listed.1 item = .ok text := by
    intro item member
    obtain ⟨shown, told⟩ := (kept.sequence sequenced item member).exists_display
    exact ⟨_, bind_eq_ok.mpr ⟨name, named, bind_eq_ok.mpr ⟨shown, told, rfl⟩⟩⟩
  obtain ⟨lines, each⟩ := exists_mapM line
  exact ⟨lines, bind_eq_ok.mpr ⟨items, sequenced, each⟩⟩

theorem exists_hintLines (written : (Value.map error).Written) :
    ∃ lines, hintLines error = .ok lines := by
  unfold hintLines
  dsimp only
  split
  next =>
    have held : ((Record.get? error "hint").getD .null).Written := written.getD .null
    obtain ⟨hint, shown⟩ := held.exists_display
    exact ⟨_, bind_eq_ok.mpr ⟨hint, shown, rfl⟩⟩
  next => exact ⟨[], rfl⟩

theorem exists_commandLines (printable : PrintableEntry record) :
    ∃ lines, commandLines record = .ok lines := by
  unfold commandLines
  dsimp only
  split
  next truthy =>
    have joined : ∃ text, ((Record.get? record "argv").getD .null).joined " " = .ok text := by
      cases held : Record.get? record "argv" with
      | none =>
        rw [held] at truthy
        cases truthy
      | some value =>
        rw [held] at truthy
        rcases printable.arguments value held with rfl | ⟨texts, rfl⟩
        · cases truthy
        · exact ⟨_, joined_ofTexts " " texts⟩
    obtain ⟨text, joined⟩ := joined
    exact ⟨_, bind_eq_ok.mpr ⟨text, joined, rfl⟩⟩
  next => exact ⟨[], rfl⟩

theorem exists_failureOf? (written : WrittenStage listed) (printable : PrintableEntry listed.2) :
    ∃ lines, failureOf? listed = .ok lines := by
  unfold failureOf?
  split
  next error held =>
    have blamed := written.entry.get? held
    obtain ⟨name, named⟩ := written.key.exists_display
    obtain ⟨type, typed⟩ := exists_textOr blamed "type" unknown
    obtain ⟨message, told⟩ := exists_textOr blamed "message" ""
    obtain ⟨hint, hinted⟩ := exists_hintLines blamed
    obtain ⟨command, run⟩ := exists_commandLines printable
    exact ⟨_, bind_eq_ok.mpr ⟨name, named, bind_eq_ok.mpr ⟨type, typed,
      bind_eq_ok.mpr ⟨message, told, bind_eq_ok.mpr ⟨hint, hinted,
        bind_eq_ok.mpr ⟨command, run, rfl⟩⟩⟩⟩⟩⟩
  next => exact ⟨[], rfl⟩

theorem exists_environmentLines (plain : (Value.map inputs).Plain)
    (texts : ∀ settings, Record.get? inputs "environment" = some (.map settings) →
      ∀ setting ∈ settings, ∃ text, setting.2 = .text text) :
    ∃ lines, environmentLines inputs = .ok lines := by
  cases held : Record.get? inputs "environment" with
  | none => exact ⟨_, by rw [environmentLines, held]; rfl⟩
  | some value =>
    cases value with
    | map settings =>
      obtain ⟨-, -, parts⟩ := plain.entries
      have member := Entries.mem_of_find? (Scalar.exact_text "environment") held
      obtain ⟨entries, rfl, -⟩ := exists_tableOf (parts _ member) (texts settings held)
      exact ⟨_, environmentLines_of_table held⟩
    | _ => exact ⟨_, by rw [environmentLines, held]; rfl⟩

theorem exists_traceLines (same : Reordered (.map run) (.map run))
    (written : (Value.map inputs).Written) (events : Nat) :
    ∃ lines, traceLines run inputs events = .ok lines := by
  obtain ⟨identity, identified⟩ := exists_textOr written "policy_hash" unknown
  obtain ⟨version, versioned⟩ := exists_textOr same.written "buildgate_version" unknown
  obtain ⟨text, wrote, -⟩ := write_eq same .indented
  exact ⟨_, bind_eq_ok.mpr ⟨identity, identified, bind_eq_ok.mpr ⟨version, versioned,
    bind_eq_ok.mpr ⟨text, wrote, rfl⟩⟩⟩⟩

variable {manifest : Record}

theorem exists_linesOf (plain : (Value.map manifest).Plain) (written : (Value.map manifest).Written)
    (printable : Printable manifest)
    (read : ∀ stage ∈ sectionOf manifest "stages", ∀ entry, stage.2 = .map entry →
      WarningsRead entry) : ∃ lines, linesOf manifest = .ok lines := by
  have same : Reordered (.map manifest) (.map manifest) := ⟨plain, plain, written, .refl _⟩
  have run := sectionOf_reordered same "run"
  have inputs := sectionOf_reordered same "inputs"
  have states := sectionOf_reordered same "stages"
  have ended := sectionOf_reordered same "outcome"
  obtain ⟨stages, _, ordered, -, -⟩ := orderedStages_alike states printable.stages
  have source : ∀ item ∈ stages, (item.1, .map item.2) ∈ sectionOf manifest "stages" := by
    intro item member
    rw [orderedStages_eq] at ordered
    have kept := (Sorted.perm_of_sortChecked ordered).mem_iff.mp member
    obtain ⟨entry, present, found⟩ := List.mem_filterMap.mp kept
    exact listed?_eq_some.mp found ▸ present
  have texts (item : Listed) (member : item ∈ stages) : WrittenStage item :=
    ⟨states.written.keys _ (source item member), states.written.entries _ (source item member)⟩
  have held (item : Listed) (member : item ∈ stages) : PrintableEntry item.2 :=
    printable.stages _ (source item member) _ rfl
  have warned : ∃ lines, warningLines stages = .ok lines := by
    obtain ⟨parts, each⟩ := exists_mapM fun item member =>
      exists_warningLinesOf (texts item member) (held item member)
        (read _ (source item member) _ rfl)
    exact ⟨_, bind_eq_ok.mpr ⟨parts, each, rfl⟩⟩
  have failed : ∃ lines, failureLines stages = .ok lines := by
    obtain ⟨parts, each⟩ := exists_mapM fun item member =>
      exists_failureOf? (texts item member) (held item member)
    exact ⟨_, bind_eq_ok.mpr ⟨parts, each, rfl⟩⟩
  obtain ⟨outcome, told⟩ := exists_outcomeLines run.written ended.written
  obtain ⟨rows, listed⟩ := exists_stageLines texts
  obtain ⟨warnings, warned⟩ := warned
  obtain ⟨failures, failed⟩ := failed
  obtain ⟨settings, settled⟩ := exists_environmentLines inputs.leftPlain printable.environment
  obtain ⟨trace, traced⟩ := exists_traceLines run inputs.written (eventCount manifest)
  exact ⟨_, bind_eq_ok.mpr ⟨stages, ordered, bind_eq_ok.mpr ⟨outcome, told,
    bind_eq_ok.mpr ⟨rows, listed, bind_eq_ok.mpr ⟨warnings, warned,
      bind_eq_ok.mpr ⟨failures, failed, bind_eq_ok.mpr ⟨settings, settled,
        bind_eq_ok.mpr ⟨trace, traced, rfl⟩⟩⟩⟩⟩⟩⟩⟩

/-- A manifest that can be written and printed has a report. -/
theorem exists_report_of_written (filled : manifest ≠ []) (plain : (Value.map manifest).Plain)
    (written : (Value.map manifest).Written) (printable : Printable manifest)
    (read : ∀ stage ∈ sectionOf manifest "stages", ∀ entry, stage.2 = .map entry →
      WarningsRead entry) : ∃ report, generate (.map manifest) = .ok report := by
  obtain ⟨lines, listed⟩ := exists_linesOf plain written printable read
  cases manifest with
  | nil => exact absurd rfl filled
  | cons first rest => exact ⟨_, generate_of_lines listed⟩

end BuildRules.Report
