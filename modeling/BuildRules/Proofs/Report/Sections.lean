import BuildRules.Proofs.Number.Rounding
import BuildRules.Proofs.Report.Text
import BuildRules.Proofs.Run.FirstFailure
import BuildRules.Proofs.Run.Return

namespace BuildRules

namespace Value

theorem same_int {left right : Int} (apart : left ≠ right) :
    (Value.int left).same (.int right) = false := by
  have places : ¬ Binary64.placeOfInt left = Binary64.placeOfInt right := by
    intro equal
    have products := (Prod.mk.inj equal).2
    have positive : (Binary64.stepsInOne : Int) ≠ 0 :=
      Int.natCast_ne_zero.mpr (Nat.ne_of_gt Binary64.stepsInOne_pos)
    exact apart (Int.eq_of_mul_eq_mul_right positive products)
  change (Binary64.placeOfInt left == Binary64.placeOfInt right) = false
  simp [places]

theorem before_int (left right : Int) :
    (Value.int left).before (.int right) = .ok (decide (left < right)) := by
  have positive : (0 : Int) < Binary64.stepsInOne := Int.natCast_pos.mpr Binary64.stepsInOne_pos
  have products : left * Binary64.stepsInOne < right * Binary64.stepsInOne ↔ left < right :=
    Int.mul_lt_mul_right positive
  change Except.ok (decide ((0 : Int) < 0) || ((0 : Int) == 0 &&
    decide (left * (Binary64.stepsInOne : Int) < right * Binary64.stepsInOne))) = _
  rw [decide_eq_decide.mpr products]
  rfl

theorem truthy_ofTexts (texts : List String) : (Value.ofTexts texts).truthy = !texts.isEmpty := by
  cases texts <;> rfl

theorem joined_ofTexts (separator : String) (texts : List String) :
    (Value.ofTexts texts).joined separator = .ok (separator.intercalate texts) := by
  refine bind_eq_ok.mpr ⟨texts.map .text, rfl, bind_eq_ok.mpr ⟨texts, mapM_eq_ok.mpr ?_, rfl⟩⟩
  rw [List.forall₂_map_left_iff]
  exact List.forall₂_same.mpr fun text _ => rfl

end Value

namespace Report

open Runner

variable {started : Bool} {entry : Scalar × Record} {outcome : StageOutcome}

structure Legible (outcome : StageOutcome) : Prop where
  ordinal : Number.isShort outcome.ordinal = true
  code : ∀ code, outcome.code = some code → Number.isShort code = true
  milliseconds : Number.isShort outcome.milliseconds = true

theorem textOr_int {record : Record} {name standard : String} {number : Int}
    (held : Record.get? record name = some (.int number)) :
    textOr record name standard = Number.display number := by
  rw [textOr, held]
  rfl

theorem textOr_text {record : Record} {name standard text : String}
    (held : Record.get? record name = some (.text text)) :
    textOr record name standard = .ok text := by
  rw [textOr, held]
  rfl

theorem exitText_of_mirrors (mirrors : Mirrors started entry outcome) (legible : Legible outcome) :
    exitText entry.2 = .ok (exitOf outcome) := by
  rw [exitText, exitOf, mirrors.code]
  cases held : outcome.code with
  | none => rw [StageOutcome.codeValue, held]
  | some code =>
    rw [StageOutcome.codeValue, held]
    exact Number.display_eq_ok (legible.code code held)

theorem stageRow_of_mirrors (mirrors : Mirrors started entry outcome)
    (legible : Legible outcome) : stageRow entry = .ok (rowText outcome) := by
  have name : entry.1.display = .ok outcome.name := by rw [mirrors.name]; rfl
  rw [stageRow, textOr_int mirrors.ordinal, Number.display_eq_ok legible.ordinal, name,
    textOr_text mirrors.status, exitText_of_mirrors mirrors legible,
    textOr_int mirrors.milliseconds, Number.display_eq_ok legible.milliseconds]
  rfl

theorem stageRow_of_long (mirrors : Mirrors started entry outcome)
    (long : Number.isShort outcome.ordinal = false) :
    stageRow entry = .error .integerTooLong := by
  rw [stageRow, textOr_int mirrors.ordinal, Number.display, long]
  rfl

theorem warningLinesOf_of_mirrors (mirrors : Mirrors started entry outcome) :
    warningLinesOf entry = .ok (outcome.warnings.map fun warning =>
      "- **" ++ outcome.name ++ "**: " ++ warning) := by
  rw [warningLinesOf, mirrors.name, mirrors.warnings, Option.getD_some, Manifest.orElse_ofTexts]
  refine bind_eq_ok.mpr ⟨outcome.warnings.map .text, rfl, mapM_eq_ok.mpr ?_⟩
  rw [List.forall₂_map_left_iff, List.forall₂_map_right_iff]
  exact List.forall₂_same.mpr fun warning _ => rfl

def errorText (outcome : StageOutcome) : List String :=
  (outcome.error.map (failureOf outcome)).getD []

/-- A stage was started just when it has arguments. -/
def StartedWith (started : Bool) (outcome : StageOutcome) : Prop :=
  outcome.arguments.isEmpty = !started

theorem hintLines_of_payload (payload : Payload) :
    hintLines payload.toRecord =
      .ok (if payload.hint.getD "" = "" then [] else ["- **Hint**: " ++ payload.hint.getD ""]) := by
  have held : Record.get? payload.toRecord "hint" = some (.ofText? payload.hint) := rfl
  rw [hintLines, held]
  cases payload.hint with
  | none => rfl
  | some hint =>
    by_cases empty : hint = ""
    · rw [empty]
      rfl
    · have said : (Value.ofText? (some hint)).truthy = true := by
        simpa [Value.ofText?, Value.truthy] using empty
      dsimp only [Option.getD_some]
      rw [if_pos said, if_neg empty]
      rfl

theorem commandLines_of_mirrors (mirrors : Mirrors started entry outcome)
    (arguments : StartedWith started outcome) :
    commandLines entry.2 = .ok (if outcome.arguments.isEmpty then []
      else ["- **Command**: " ++ code (" ".intercalate outcome.arguments)]) := by
  rw [commandLines, mirrors.arguments, arguments]
  cases started with
  | false => rfl
  | true =>
    have some : (Value.ofTexts outcome.arguments).truthy = true := by
      rw [Value.truthy_ofTexts, arguments]
      rfl
    simp only [if_true, Option.getD_some, some, Value.joined_ofTexts]
    rfl

theorem failureLinesOf_of_mirrors (mirrors : Mirrors started entry outcome)
    (arguments : StartedWith started outcome) (payload : Payload) :
    failureLinesOf entry payload.toRecord = .ok (failureOf outcome payload) := by
  have name : entry.1.display = .ok outcome.name := by rw [mirrors.name]; rfl
  have kind : textOr payload.toRecord "type" unknown = .ok payload.code := rfl
  have message : textOr payload.toRecord "message" "" = .ok payload.message := rfl
  rw [failureLinesOf, name, kind, message, hintLines_of_payload,
    commandLines_of_mirrors mirrors arguments]
  rfl

section Stages

variable {entries : List (Scalar × Record)} {outcomes : List StageOutcome}

theorem stageLines_of_mirrors (mirrors : List.Forall₂ (Mirrors started) entries outcomes)
    (legible : ∀ outcome ∈ outcomes, Legible outcome) :
    stageLines entries = .ok (stagesText outcomes) := by
  have rows : entries.mapM stageRow = .ok (outcomes.map rowText) := by
    rw [mapM_eq_ok, List.forall₂_map_right_iff]
    exact forall₂_imp_mem mirrors fun entry _ outcome member mirrors =>
      stageRow_of_mirrors mirrors (legible outcome member)
  rw [stageLines, rows]
  cases mirrors <;> rfl

theorem stageLines_of_long (mirrors : List.Forall₂ (Mirrors started) entries outcomes)
    {outcome : StageOutcome} (member : outcome ∈ outcomes)
    (long : Number.isShort outcome.ordinal = false) :
    ∃ fault, stageLines entries = .error fault := by
  obtain ⟨entry, present, mirrored⟩ := exists_of_forall₂ mirrors.flip member
  cases shown : stageLines entries with
  | error fault => exact ⟨fault, rfl⟩
  | ok lines =>
    rw [stageLines, if_neg (by simpa using List.ne_nil_of_mem present)] at shown
    obtain ⟨rows, each, -⟩ := bind_eq_ok.mp shown
    obtain ⟨row, -, made⟩ := exists_of_forall₂ (mapM_eq_ok.mp each) present
    rw [stageRow_of_long mirrored long] at made
    cases made

theorem warningLines_of_mirrors (mirrors : List.Forall₂ (Mirrors started) entries outcomes) :
    warningLines entries = .ok (warningsText outcomes) := by
  have each : entries.mapM warningLinesOf = .ok (outcomes.map fun outcome =>
      outcome.warnings.map fun warning => "- **" ++ outcome.name ++ "**: " ++ warning) := by
    rw [mapM_eq_ok, List.forall₂_map_right_iff]
    exact mirrors.imp fun _ _ mirrors => warningLinesOf_of_mirrors mirrors
  unfold warningLines
  rw [each]
  rfl

/-- Only the last stage can have failed, and a stage has an error just when it has failed. -/
structure EndsAtFailure (outcomes : List StageOutcome) : Prop where
  early : ∀ front last, outcomes = front ++ [last] → ∀ outcome ∈ front, outcome.status = .success
  error : ∀ outcome ∈ outcomes, outcome.status = .success ↔ outcome.error = none

theorem failureText_eq {result : RunResult} (ends : EndsAtFailure result.stages) :
    failureText result =
      if (result.stages.map errorText).flatten.isEmpty then ["No stage failures recorded."]
      else (result.stages.map errorText).flatten := by
  have silent : ∀ outcomes : List StageOutcome, (∀ outcome ∈ outcomes, outcome.error = none) →
      (outcomes.map errorText).flatten = [] := by
    intro outcomes each
    rw [List.flatten_eq_nil_iff]
    intro lines member
    obtain ⟨outcome, present, rfl⟩ := List.mem_map.mp member
    rw [errorText, each outcome present]
    rfl
  rw [failureText]
  -- the result tells of its failed stage alone; the others, if any, have no lines
  by_cases each : ∀ outcome ∈ result.stages, outcome.status = .success
  · rw [failedStage?_of_successes each,
      silent _ fun outcome member => (ends.error outcome member).mp (each outcome member)]
    rfl
  · have ⟨front, last, shape⟩ : ∃ front last, result.stages = front ++ [last] := by
      rcases List.eq_nil_or_concat result.stages with empty | ⟨front, last, shape⟩
      · exact absurd (empty ▸ List.forall_mem_nil _) each
      · exact ⟨front, last, shape.trans List.concat_eq_append⟩
    have early := ends.early front last shape
    have failed : last.status ≠ .success := by
      intro success
      apply each
      rw [shape, List.forall_mem_append]
      exact ⟨early, List.forall_mem_singleton.mpr success⟩
    have member : last ∈ result.stages := by simp [shape]
    have quiet : ∀ outcome ∈ front, outcome.error = none := by
      intro outcome present
      exact (ends.error outcome (by simp [shape, present])).mp (early outcome present)
    obtain ⟨payload, error⟩ :=
      Option.ne_none_iff_exists'.mp (mt (ends.error last member).mpr failed)
    rw [failedStage?_of_last shape early failed, shape, List.map_append, List.flatten_append,
      silent front quiet]
    simp [errorText, error, failureOf]

theorem failureLines_of_mirrors {result : RunResult}
    (mirrors : List.Forall₂ (Mirrors started) entries result.stages)
    (arguments : ∀ outcome ∈ result.stages, StartedWith started outcome)
    (ends : EndsAtFailure result.stages) : failureLines entries = .ok (failureText result) := by
  refine bind_eq_ok.mpr ⟨result.stages.map errorText, mapM_eq_ok.mpr ?_, ?_⟩
  · rw [List.forall₂_map_right_iff]
    apply forall₂_imp_mem mirrors
    intro entry _ outcome member mirrors
    rw [mirrors.error, errorText]
    cases outcome.error with
    | none => rfl
    | some payload => exact failureLinesOf_of_mirrors mirrors (arguments outcome member) payload
  · rw [failureText_eq ends]
    rfl

/-- Stages that come by ordinal already are listed as they come. -/
theorem orderedStages_of_mirrors (mirrors : List.Forall₂ (Mirrors started) entries outcomes)
    (ascending : outcomes.Pairwise fun earlier later => earlier.ordinal < later.ordinal) :
    orderedStages (entries.map fun entry => (entry.1, .map entry.2)) = .ok entries := by
  have ordinals : ∀ {entry : Scalar × Record} {outcome : StageOutcome},
      Mirrors started entry outcome → ordinalOf entry.2 = .int outcome.ordinal := by
    intro entry outcome mirrors
    rw [ordinalOf, mirrors.ordinal, Option.getD_some]
  have listed : orderedStages (entries.map fun entry => (entry.1, .map entry.2)) =
      Sorted.sortChecked listedBefore entries :=
    congrArg (Sorted.sortChecked listedBefore) (List.filterMap_map.trans List.filterMap_some)
  rw [listed]
  apply Sorted.sortChecked_of_ascending
  clear listed
  induction mirrors with
  | nil => exact .nil
  | cons first rest ih =>
    obtain ⟨below, ascending⟩ := List.pairwise_cons.mp ascending
    refine .cons ?_ (ih ascending)
    intro later member
    obtain ⟨outcome, present, mirrors⟩ := exists_of_forall₂ rest member
    have less := below outcome present
    rw [listedBefore, ordinals mirrors, ordinals first, Value.same_int (ne_of_gt less),
      Value.before_int, decide_eq_false (Int.lt_asymm less)]
    rfl

end Stages

section Environment

theorem sortChecked_tableOf (entries : List (String × String)) :
    Sorted.sortChecked (fun left right : Scalar × Value => Scalar.before left.1 right.1)
      (tableOf entries) = .ok (tableOf (byName entries)) := by
  have total : Std.Total fun left right : String × String => left.1 ≤ right.1 :=
    ⟨fun left right => String.le_total left.1 right.1⟩
  have transitive : IsTrans (String × String) fun left right => left.1 ≤ right.1 :=
    ⟨fun _ _ _ first second => String.le_trans first second⟩
  have decided : ∀ left right : String × String, Scalar.before (.text left.1) (.text right.1) =
      .ok (decide (¬ right.1 ≤ left.1)) := by
    intro left right
    simp [Scalar.before]
  rw [tableOf, Sorted.sortChecked_map, Sorted.sortChecked_eq_insertionSort decided]
  rfl

theorem environmentLines_of_table {inputs : Record} {settings : List (String × String)}
    (held : Record.get? inputs "environment" = some (.map (tableOf settings))) :
    environmentLines inputs = .ok (environmentText settings) := by
  unfold environmentLines environmentText
  rw [held]
  cases settings with
  | nil => rfl
  | cons first rest =>
    have sorted := sortChecked_tableOf (first :: rest)
    refine bind_eq_ok.mpr ⟨tableOf (byName (first :: rest)), sorted, mapM_eq_ok.mpr ?_⟩
    rw [if_neg (by simp), tableOf, List.forall₂_map_left_iff, List.forall₂_map_right_iff]
    exact List.forall₂_same.mpr fun entry _ => rfl

end Environment

namespace Setting

variable {setting : Setting} {created : Manifest}

def runRecord (setting : Setting) : Record :=
  Record.ofFields [("run_id", .text setting.runId), ("started_at", .text setting.startedAt.utcIso),
    ("buildgate_version", .text setting.version)] ++
  if setting.triggered.isEmpty then []
  else [(.text "trigger", .map (tableOf setting.triggered))]

def inputsRecord (setting : Setting) : Record :=
  .ofFields [("policy_hash", .text setting.identity),
    ("environment", .map (tableOf setting.settings))]

/-- An empty table is created like one that is not given. -/
theorem created_eq (creation : setting.manifest = .ok created) :
    created = ⟨setting.runRecord, setting.inputsRecord, [], [], []⟩ := by
  obtain ⟨runId, startedAt, version, identity, environment, trigger⟩ := setting
  obtain ⟨started, written, creation⟩ := bind_eq_ok.mp creation
  have shown : started = startedAt.utcIso := by
    have shown := Manifest.shown_of_utcText written
    rw [Manifest.utcText_eq shown] at written
    exact (Except.ok.inj written).symm
  rw [shown] at creation
  unfold runRecord inputsRecord settings triggered
  rcases trigger with _ | _ | ⟨first, rest⟩
  all_goals
    rcases environment with _ | _ | ⟨setting, settings⟩
    all_goals
      cases creation
      rfl

theorem exists_created (shown : setting.startedAt.utc?.isSome) :
    ∃ created, setting.manifest = .ok created := by
  obtain ⟨runId, startedAt, version, identity, environment, trigger⟩ := setting
  unfold manifest Manifest.create
  rw [Manifest.utcText_eq shown]
  rcases trigger with _ | _ | ⟨first, rest⟩
  all_goals
    rcases environment with _ | _ | ⟨setting, settings⟩
    all_goals exact ⟨_, rfl⟩

theorem get?_runRecord (setting : Setting) :
    Record.get? setting.runRecord "run_id" = some (.text setting.runId) ∧
      Record.get? setting.runRecord "started_at" = some (.text setting.startedAt.utcIso) ∧
      Record.get? setting.runRecord "buildgate_version" = some (.text setting.version) ∧
      Record.get? setting.runRecord "trigger" =
        if setting.triggered.isEmpty then none else some (.map (tableOf setting.triggered)) := by
  refine ⟨rfl, rfl, rfl, ?_⟩
  unfold runRecord
  cases setting.triggered <;> rfl

end Setting

theorem find?_tableOf (entries : List (String × String)) (name : String) :
    Record.get? (tableOf entries) name = (Entries.find? entries name).map .text := by
  induction entries with
  | nil => rfl
  | cons entry rest ih =>
    unfold Record.get? tableOf at ih ⊢
    rw [List.map_cons, Entries.find?, Entries.find?, ih]
    by_cases same : entry.1 = name
    · simp [Key.same, Scalar.sameKey, Scalar.same, same]
    · simp [Key.same, Scalar.sameKey, Scalar.same, same]

theorem sortNames_texts (entries : List (String × String)) :
    Json.sortNames (entries.map fun entry => (entry.1, .text entry.2)) =
      (byName entries).map fun entry => (entry.1, .text entry.2) := by
  rw [Json.sortNames_eq_insertionSort, byName]
  symm
  apply List.map_insertionSort
  intro left _ right _
  exact Iff.rfl

theorem ofValue_tableOf (entries : List (String × String)) :
    Json.ofValue (.map (tableOf entries)) =
      .ok (.object ((byName entries).map fun entry => (entry.1, .text entry.2))) := by
  rw [← sortNames_texts]
  apply Json.ofValue_map
  · intro entry member
    obtain ⟨source, -, rfl⟩ := List.mem_map.mp member
    exact ⟨source.1, rfl⟩
  · rw [tableOf, List.forall₂_map_left_iff, List.forall₂_map_right_iff]
    exact List.forall₂_same.mpr fun entry _ => ⟨rfl, rfl⟩

theorem ofValue_runRecord (setting : Setting) :
    Json.ofValue (.map setting.runRecord) = .ok (runDocument setting) := by
  have named : List.Forall₂ Json.Stands (Record.ofFields [("run_id", .text setting.runId),
      ("started_at", .text setting.startedAt.utcIso),
      ("buildgate_version", .text setting.version)])
      [("run_id", .text setting.runId), ("started_at", .text setting.startedAt.utcIso),
        ("buildgate_version", .text setting.version)] :=
    .cons ⟨rfl, rfl⟩ (.cons ⟨rfl, rfl⟩ (.cons ⟨rfl, rfl⟩ .nil))
  have startedLast : Json.keyLe (.text "started_at") (.text "buildgate_version") = false := by
    decide
  have runLast : Json.keyLe (.text "run_id") (.text "buildgate_version") = false := by decide
  have runFirst : Json.keyLe (.text "run_id") (.text "started_at") = true := by decide
  unfold Setting.runRecord runDocument
  by_cases empty : setting.triggered.isEmpty = true
  · have stands := List.rel_append named List.Forall₂.nil
    rw [if_pos empty, if_pos empty, Json.ofValue_map (by simp [Record.ofFields]) stands]
    simp [Json.sortNames, Sorted.sort, Sorted.insert, startedLast, runLast, runFirst]
  · have trigger : List.Forall₂ Json.Stands
        [(.text "trigger", .map (tableOf setting.triggered))]
        [("trigger", .object ((byName setting.triggered).map fun entry =>
          (entry.1, .text entry.2)))] :=
      .cons ⟨rfl, ofValue_tableOf setting.triggered⟩ .nil
    have stands := List.rel_append named trigger
    have versionFirst : Json.keyLe (.text "buildgate_version") (.text "trigger") = true := by decide
    have startedFirst : Json.keyLe (.text "started_at") (.text "trigger") = true := by decide
    rw [if_neg empty, if_neg empty, Json.ofValue_map (by simp [Record.ofFields]) stands]
    simp [Json.sortNames, Sorted.sort, Sorted.insert, startedLast, runLast, runFirst, versionFirst,
      startedFirst]

theorem write_runRecord (setting : Setting) :
    Json.write .indented (.map setting.runRecord) =
      .ok (Json.render .indented (runDocument setting)) := by
  rw [Json.write, ofValue_runRecord]
  rfl

end Report
end BuildRules
