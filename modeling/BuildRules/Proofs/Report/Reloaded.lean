import BuildRules.Proofs.Report.Sound

namespace BuildRules.Report

open Value Manifest

/-- The manifest is stored and read back, and what is read back has the same report. -/
def Reloaded (manifest : Manifest) : Prop :=
  ∃ text stored report, manifest.write = .ok text ∧ Manifest.read text = .ok stored ∧
    manifest.Rearranged stored ∧ generate manifest.toValue = .ok report ∧
    generate stored.toValue = .ok report

section Kept

variable {manifest : Manifest}

theorem Reportable.warningsRead (reportable : Reportable manifest) :
    ∀ stage ∈ sectionOf (fieldsOf manifest) "stages", ∀ entry, stage.2 = .map entry →
      WarningsRead entry := by
  obtain ⟨-, -, stages, -, -⟩ := sectionOf_fieldsOf manifest
  rw [stages]
  intro stage member entry held
  obtain ⟨source, present, rfl⟩ := List.mem_map.mp member
  cases held
  exact (reportable.entries source present).warningsRead

theorem Reportable.reloaded (reportable : Reportable manifest) : Reloaded manifest := by
  obtain ⟨plain, written⟩ := reportable.storable
  obtain ⟨text, stored, wrote, read, kept, -⟩ := stored_as_one_text plain written
  obtain ⟨report, generated⟩ := exists_report_of_written (List.cons_ne_nil _ _) plain written
    reportable.printable reportable.warningsRead
  have same : Reordered manifest.toValue stored.toValue :=
    ⟨plain, plain.of_rearranged kept.toValue, written, kept.toValue⟩
  exact ⟨text, stored, report, wrote, read, kept, generated,
    (generate_eq same reportable.printable).symm.trans generated⟩

/-- An ordinal that was recorded is short if the manifest is. -/
theorem isShort_of_started {fresh after : Manifest} {name : String} {ordinal : Int}
    {arguments : Value} {time : Timestamp} (empty : fresh.stages = [])
    (ran : Returns (Call.perform (.started name (.int ordinal) arguments time)) fresh () after)
    (written : after.toValue.Written) : Number.isShort ordinal = true := by
  obtain ⟨-, fields, payload, sets, rfl⟩ := sets_of_returns ran rfl
  obtain ⟨run, inputs, _, events, outcome⟩ := fresh
  cases empty
  cases sets with
  | started listed =>
    rw [recorded_eq] at written
    have stages := written.entries _ (List.mem_of_getElem? (i := 2) rfl)
    have entry := stages.entries _ (List.mem_of_getElem? (i := 0) rfl)
    have field := entry.entries _ (List.mem_of_getElem? (i := 1) rfl)
    exact field.leaf

/-- The report is made of the content of a manifest, in whatever order its entries are: two
manifests that differ in nothing else have the same one, and so does a manifest that was recorded
call by call, stored and read back. -/
theorem report_of_content :
    (∀ left right : Record, left ≠ [] → Reordered (.map left) (.map right) → Printable left →
      generate (.map left) = generate (.map right) ∧
        ((∀ stage ∈ sectionOf left "stages", ∀ entry, stage.2 = .map entry → WarningsRead entry) →
          ∃ report, generate (.map left) = .ok report)) ∧
      ∀ (runId version identity environment trigger : Value) (startedAt : Timestamp)
        (fresh : Manifest) (operations : List Operation),
        create runId startedAt version identity environment trigger = .ok fresh →
        SoundStart runId version identity environment trigger →
        (∀ operation ∈ operations, Sound operation) →
        Reloaded (attempts Operation.perform fresh operations) := by
  refine ⟨fun left right filled same printable => ⟨generate_eq same printable, ?_⟩, ?_⟩
  · exact exists_report_of_written filled same.leftPlain same.written printable
  · intro runId version identity environment trigger startedAt fresh operations creation start sound
    exact ((reportable_create creation start).attempts sound).reloaded

def numberedStages (ordinals : List (String × Int)) : Record :=
  .ofFields [("stages", .ofFields (ordinals.map fun stage =>
    (stage.1, .ofFields [("ordinal", .int stage.2)])))]

section Numbered

variable {ordinals others : List (String × Int)}

theorem plain_numberedStages (distinct : (ordinals.map Prod.fst).Nodup) :
    (Value.map (numberedStages ordinals)).Plain := by
  refine plain_single (plain_ofFields ?_ ?_)
  · rwa [List.map_map]
  · intro field member
    obtain ⟨stage, -, rfl⟩ := List.mem_map.mp member
    exact plain_single (.scalar _)

theorem written_numberedStages (short : ∀ stage ∈ ordinals, Number.isShort stage.2 = true) :
    (Value.map (numberedStages ordinals)).Written := by
  refine written_single (.map ?_ ?_)
  · intro field member
    obtain ⟨stage, -, rfl⟩ := List.mem_map.mp member
    trivial
  · intro field member
    obtain ⟨source, present, rfl⟩ := List.mem_map.mp member
    obtain ⟨stage, held, rfl⟩ := List.mem_map.mp present
    exact written_single (.int (short stage held))

theorem reordered_numberedStages (distinct : (ordinals.map Prod.fst).Nodup)
    (short : ∀ stage ∈ ordinals, Number.isShort stage.2 = true) (moved : ordinals.Perm others) :
    Reordered (.map (numberedStages ordinals)) (.map (numberedStages others)) where
  leftPlain := plain_numberedStages distinct
  rightPlain := plain_numberedStages ((moved.map Prod.fst).nodup_iff.mp distinct)
  written := written_numberedStages short
  same := by
    refine .map (.refl _) rfl (.cons ?_ .nil)
    exact .map ((moved.map _).map _) rfl (List.forall₂_same.mpr fun value _ => .refl value)

theorem sectionOf_numberedStages {name : String} (other : "stages" ≠ name) :
    sectionOf (numberedStages ordinals) name = [] := by
  simp [sectionOf, numberedStages, other]

theorem entry_of_numberedStages {stage : Scalar × Value} {entry : Record}
    (member : stage ∈ sectionOf (numberedStages ordinals) "stages") (held : stage.2 = .map entry) :
    ∃ ordinal, entry = .ofFields [("ordinal", .int ordinal)] := by
  obtain ⟨field, present, rfl⟩ := List.mem_map.mp member
  obtain ⟨source, -, rfl⟩ := List.mem_map.mp present
  cases held
  exact ⟨source.2, rfl⟩

theorem printable_numberedStages : Printable (numberedStages ordinals) := by
  refine ⟨?_, ?_, ?_, ?_, ?_, ?_⟩
  · simp [sectionOf_numberedStages, LeafAt]
  · simp [sectionOf_numberedStages]
  · simp [sectionOf_numberedStages, LeafAt]
  · simp [sectionOf_numberedStages]
  · intro stage member entry held
    obtain ⟨ordinal, rfl⟩ := entry_of_numberedStages member held
    refine ⟨?_, ?_, ?_, ?_, ?_⟩ <;> simp [LeafAt, FlatAt]
  · simp [sectionOf_numberedStages, LeafAt]

end Numbered

def failing : List Operation :=
  [.event (.text "gate") (second 1) (some (.text "policy")) none,
    .recording (.started "test" (.int 2) (.ofTexts ["cargo", "test"]) (second 2)),
    .recording (.finished "test" (second 3) (.int 0) (.list [.text "unused"])),
    .recording (.failed "build" (second 4) (.text "failed")
      (.map [(.text "type", .text "StageError")]) (.int 1) .null (.int 1)),
    .recording (.closed (second 5) (.map [(.text "stage", .text "build")]))]

theorem sound_failing : ∀ operation ∈ failing, Sound operation := by
  have leaf (number : Int) (short : Number.isShort number = true) : StoredLeaf (.int number) :=
    ⟨.int short, .int number, rfl⟩
  simp only [failing, List.forall_mem_cons]
  refine ⟨?_, ?_, ?_, ?_, ?_, List.forall_mem_nil _⟩
  · refine .event (.text _) ?_ ?_
    · rintro _ ⟨⟩
      exact .text _
    · rintro _ ⟨⟩
  · exact .started (by decide)
  · refine .finished (leaf 0 (by decide)) (.inr ⟨_, rfl, ?_⟩)
    exact List.forall_mem_singleton.mpr (storedLeaf_text _)
  · exact .failed (storedLeaf_text _) (storedMap_text _ _) (leaf 1 (by decide)) (.inl rfl)
      (.inr ⟨1, rfl, by decide⟩)
  · exact .closed (storedMap_text _ _)

theorem failing_reported :
    Reordered (.map (numberedStages [("test", 2), ("build", 1)]))
        (.map (numberedStages [("build", 1), ("test", 2)])) ∧
      generate (.map (numberedStages [("test", 2), ("build", 1)])) =
        generate (.map (numberedStages [("build", 1), ("test", 2)])) ∧
      (∃ report, generate (.map (numberedStages [("test", 2), ("build", 1)])) = .ok report) ∧
      ∃ fresh, create (.text "run-1") (second 0) (.text "0.1.0") (.text "") .null .null =
          .ok fresh ∧
        (∀ operation ∈ failing, Sound operation) ∧
        Reloaded (attempts Operation.perform fresh failing) := by
  have moved := reordered_numberedStages (by decide) (by decide) (.swap ("build", 1) ("test", 2) [])
  obtain ⟨equal, reported⟩ :=
    report_of_content.1 _ _ (List.cons_ne_nil _ _) moved printable_numberedStages
  have read := reported fun stage member entry held leaf warned => by
    obtain ⟨ordinal, rfl⟩ := entry_of_numberedStages member held
    cases warned
  obtain ⟨fresh, created⟩ := exists_of_isOk (by decide +kernel :
    (create (.text "run-1") (second 0) (.text "0.1.0") (.text "") .null .null).isOk = true)
  have start : SoundStart (.text "run-1") (.text "0.1.0") (.text "") .null .null :=
    ⟨storedLeaf_text _, storedLeaf_text _, storedLeaf_text _, .inl rfl, .inl rfl⟩
  exact ⟨moved, equal, read, fresh, created, sound_failing,
    report_of_content.2 _ _ _ _ _ _ fresh failing created start sound_failing⟩

theorem stageRow_overlong :
    stageRow (.text "build", .ofFields [("ordinal", .int Number.overlong)]) =
      .error .integerTooLong := by
  have ordinal : textOr (.ofFields [("ordinal", .int Number.overlong)]) "ordinal" "-" =
      .error .integerTooLong := (textOr_int rfl).trans Number.display_overlong
  rw [stageRow, ordinal]
  rfl

theorem generate_overlong : ∃ fault,
    generate (.map (numberedStages [("build", Number.overlong)])) = .error fault := by
  have rows : stageLines [(.text "build", .ofFields [("ordinal", .int Number.overlong)])] =
      .error .integerTooLong := by
    rw [stageLines, List.mapM_cons, stageRow_overlong]
    rfl
  have listed : orderedStages (sectionOf (numberedStages [("build", Number.overlong)]) "stages") =
      .ok [(.text "build", .ofFields [("ordinal", .int Number.overlong)])] := rfl
  have unread : linesOf (numberedStages [("build", Number.overlong)]) =
      .error .integerTooLong := by
    rw [linesOf, listed]
    refine bind_eq_error.mpr (.inr ⟨_, rfl, ?_⟩)
    refine bind_eq_error.mpr (.inr ⟨_, rfl, ?_⟩)
    exact bind_eq_error.mpr (.inl rows)
  exact ⟨_, generate_of_fault (List.cons_ne_nil _ _) unread⟩

/-- A manifest with a stage whose ordinal has no text is neither reported nor stored. -/
theorem overlong_ordinal_not_reloaded :
    (∃ fault, generate (.map (numberedStages [("build", Number.overlong)])) = .error fault) ∧
    ∃ fresh after, create (.text "run-1") (second 0) (.text "0.1.0") (.text "") .null .null =
        .ok fresh ∧
      Returns (Operation.perform (.recording (.started "build" (.int Number.overlong)
        (.ofTexts ["cargo"]) (second 1)))) fresh () after ∧
      ¬ Reloaded after := by
  obtain ⟨fresh, created⟩ := exists_of_isOk (by decide +kernel :
    (create (.text "run-1") (second 0) (.text "0.1.0") (.text "") .null .null).isOk = true)
  have shown : (second 1).utc?.isSome := by decide +kernel
  have returned : Returns (stageStarted (.text "build") (.int Number.overlong)
      (.ofTexts ["cargo"]) (second 1)) fresh () _ := stageStarted_returns shown _ _
  refine ⟨generate_overlong, fresh, _, created, returned, ?_⟩
  rintro ⟨text, stored, -, wrote, -⟩
  have short := isShort_of_started (stages_of_create created).1 returned (written_of_write wrote)
  rw [Number.isShort_overlong] at short
  cases short

end Kept

end BuildRules.Report
