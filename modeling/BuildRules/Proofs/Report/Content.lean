import BuildRules.Proofs.Report.Listing
import BuildRules.Proofs.Report.Run
import BuildRules.Proofs.Run.Stored
import BuildRules.Proofs.Value.Reordered

namespace BuildRules.Report

open Value

def LeafAt (record : Record) (name : String) : Prop :=
  ∀ value, Record.get? record name = some value → ∃ leaf, value = .scalar leaf

def FlatAt (record : Record) (name : String) : Prop :=
  ∀ value, Record.get? record name = some value → (∃ leaf, value = .scalar leaf) ∨
    ∃ items, value = .list items ∧ ∀ item ∈ items, ∃ leaf, item = .scalar leaf

/-- What the report prints of a stage: an integer as its ordinal, texts as its arguments, and leaves
besides. -/
structure PrintableEntry (entry : Record) : Prop where
  ordinal : ∀ value, Record.get? entry "ordinal" = some value → ∃ number, value = .int number
  fields : ∀ name ∈ ["status", "returncode", "duration_ms"], LeafAt entry name
  arguments : ∀ value, Record.get? entry "argv" = some value →
    value = .null ∨ ∃ texts, value = .ofTexts texts
  warnings : FlatAt entry "warnings"
  error : ∀ error, Record.get? entry "error" = some (.map error) →
    ∀ name ∈ ["type", "message", "hint"], LeafAt error name

structure Printable (manifest : Record) : Prop where
  run : ∀ name ∈ ["run_id", "started_at", "buildgate_version"],
    LeafAt (sectionOf manifest "run") name
  trigger : ∀ trigger, Record.get? (sectionOf manifest "run") "trigger" = some (.map trigger) →
    ∀ name ∈ ["event", "branch"], LeafAt trigger name
  identity : LeafAt (sectionOf manifest "inputs") "policy_hash"
  environment : ∀ settings,
    Record.get? (sectionOf manifest "inputs") "environment" = some (.map settings) →
      ∀ setting ∈ settings, ∃ text, setting.2 = .text text
  stages : ∀ stage ∈ sectionOf manifest "stages", ∀ entry, stage.2 = .map entry →
    PrintableEntry entry
  outcome : ∀ name ∈ ["stage", "reason"], LeafAt (sectionOf manifest "outcome") name

section Fields

variable {left right : Record} {name : String}

theorem get?_eq (same : Reordered (.map left) (.map right)) (leaf : LeafAt left name) :
    Record.get? left name = Record.get? right name := (same.get? name).eq_of_leaf leaf

theorem get?_eq_of_flat (same : Reordered (.map left) (.map right)) (flat : FlatAt left name) :
    Record.get? left name = Record.get? right name := by
  have found := same.get? name
  unfold FlatAt at flat
  generalize Record.get? left name = held at found flat
  generalize Record.get? right name = kept at found
  cases found with
  | absent => rfl
  | scalar leaf => rfl
  | @list items others parts =>
    rcases flat _ rfl with ⟨leaf, impossible⟩ | ⟨_, whole, leaves⟩
    · cases impossible
    · cases whole
      have equal : List.Forall₂ (fun item other => item = other) items others := by
        refine forall₂_imp_mem parts fun item member other _ part => ?_
        obtain ⟨leaf, rfl⟩ := leaves item member
        cases part.shape
        rfl
      rw [List.forall₂_eq_eq_eq] at equal
      rw [equal]
  | map parts => rcases flat _ rfl with ⟨_, impossible⟩ | ⟨_, impossible, -⟩ <;> cases impossible

theorem textOr_eq (same : Reordered (.map left) (.map right)) (leaf : LeafAt left name)
    (standard : String) : textOr left name standard = textOr right name standard := by
  rw [textOr, textOr, get?_eq same leaf]

theorem sectionOf_reordered (same : Reordered (.map left) (.map right)) (name : String) :
    Reordered (.map (sectionOf left name)) (.map (sectionOf right name)) := by
  have found := same.get? name
  have plain : (Value.map []).Plain :=
    .map (List.forall_mem_nil _) List.nodup_nil (List.forall_mem_nil _)
  have written : (Value.map []).Written := .map (List.forall_mem_nil _) (List.forall_mem_nil _)
  have empty : Reordered (.map []) (.map []) := ⟨plain, plain, written, .refl _⟩
  unfold sectionOf
  generalize Record.get? left name = held at found
  generalize Record.get? right name = kept at found
  cases found with
  | map parts => exact parts
  | _ => exact empty

theorem eventCount_eq (same : Reordered (.map left) (.map right)) :
    eventCount left = eventCount right := by
  have found := same.get? "events"
  unfold eventCount
  generalize Record.get? left "events" = held at found
  generalize Record.get? right "events" = kept at found
  cases found with
  | list parts => exact parts.length_eq
  | _ => rfl

theorem isEmpty_eq (same : Reordered (.map left) (.map right)) : left.isEmpty = right.isEmpty := by
  have truthy : (!left.isEmpty) = !right.isEmpty := same.truthy_eq
  simpa using truthy

end Fields

section Head

variable {run other outcome ended : Record}

theorem triggerLines_eq (same : Reordered (.map run) (.map other))
    (printable : ∀ trigger, Record.get? run "trigger" = some (.map trigger) →
      ∀ name ∈ ["event", "branch"], LeafAt trigger name) :
    triggerLines run = triggerLines other := by
  have found := same.get? "trigger"
  unfold triggerLines
  generalize Record.get? run "trigger" = held at found printable
  generalize Record.get? other "trigger" = kept at found
  cases found with
  | @map entries fields parts =>
    have leaves := printable entries rfl
    have event := textOr_eq parts (leaves "event" (by simp)) unknown
    have branch := textOr_eq parts (leaves "branch" (by simp)) unknown
    have emptiness := isEmpty_eq parts
    cases entries with
    | nil =>
      cases fields with
      | nil => rfl
      | cons => cases emptiness
    | cons =>
      cases fields with
      | nil => cases emptiness
      | cons =>
        dsimp only
        rw [event, branch]
  | _ => rfl

theorem resultLines_eq (same : Reordered (.map outcome) (.map ended))
    (leaves : ∀ name ∈ ["stage", "reason"], LeafAt outcome name) :
    resultLines outcome = resultLines ended := by
  have succeeded : ((Record.get? outcome "succeeded").getD .null).truthy =
      ((Record.get? ended "succeeded").getD .null).truthy := (same.get? "succeeded").getD.truthy_eq
  rw [resultLines, resultLines, isEmpty_eq same, succeeded,
    textOr_eq same (leaves "stage" (by simp)), textOr_eq same (leaves "reason" (by simp))]

theorem outcomeLines_eq (sameRun : Reordered (.map run) (.map other))
    (sameOutcome : Reordered (.map outcome) (.map ended))
    (runLeaves : ∀ name ∈ ["run_id", "started_at", "buildgate_version"], LeafAt run name)
    (trigger : ∀ trigger, Record.get? run "trigger" = some (.map trigger) →
      ∀ name ∈ ["event", "branch"], LeafAt trigger name)
    (outcomeLeaves : ∀ name ∈ ["stage", "reason"], LeafAt outcome name) :
    outcomeLines run outcome = outcomeLines other ended := by
  rw [outcomeLines, outcomeLines, resultLines_eq sameOutcome outcomeLeaves,
    textOr_eq sameRun (runLeaves "run_id" (by simp)),
    textOr_eq sameRun (runLeaves "started_at" (by simp)), triggerLines_eq sameRun trigger]

end Head

/-- One stage of two manifests that differ in the order of entries. -/
structure Alike (left right : Listed) : Prop where
  key : left.1 = right.1
  entry : Reordered (.map left.2) (.map right.2)
  printable : PrintableEntry left.2

section Stages

variable {left right : Listed} {lefts rights : List Listed}

theorem Alike.leafAt_ordinal (alike : Alike left right) : LeafAt left.2 "ordinal" := by
  intro value held
  obtain ⟨number, rfl⟩ := alike.printable.ordinal value held
  exact ⟨.int number, rfl⟩

theorem Alike.ordinalOf_eq (alike : Alike left right) : ordinalOf left.2 = ordinalOf right.2 := by
  rw [ordinalOf, ordinalOf, get?_eq alike.entry alike.leafAt_ordinal]

theorem Alike.stageRow_eq (alike : Alike left right) : stageRow left = stageRow right := by
  have fields := alike.printable.fields
  have exit : exitText left.2 = exitText right.2 := by
    rw [exitText, exitText, get?_eq alike.entry (fields "returncode" (by simp))]
  rw [stageRow, stageRow, exit,
    textOr_eq alike.entry alike.leafAt_ordinal, textOr_eq alike.entry (fields "status" (by simp)),
    textOr_eq alike.entry (fields "duration_ms" (by simp)), alike.key]

theorem Alike.warningLinesOf_eq (alike : Alike left right) :
    warningLinesOf left = warningLinesOf right := by
  unfold warningLinesOf
  rw [get?_eq_of_flat alike.entry alike.printable.warnings, alike.key]

theorem PrintableEntry.flatAt_arguments {entry : Record} (printable : PrintableEntry entry) :
    FlatAt entry "argv" := by
  intro value held
  rcases printable.arguments value held with rfl | ⟨texts, rfl⟩
  · exact .inl ⟨.null, rfl⟩
  · refine .inr ⟨texts.map .text, rfl, fun item member => ?_⟩
    obtain ⟨text, -, rfl⟩ := List.mem_map.mp member
    exact ⟨.text text, rfl⟩

theorem Alike.failureLinesOf_eq (alike : Alike left right) {error other : Record}
    (same : Reordered (.map error) (.map other))
    (leaves : ∀ name ∈ ["type", "message", "hint"], LeafAt error name) :
    failureLinesOf left error = failureLinesOf right other := by
  have hint : hintLines error = hintLines other := by
    rw [hintLines, hintLines, get?_eq same (leaves "hint" (by simp))]
  have command : commandLines left.2 = commandLines right.2 := by
    rw [commandLines, commandLines,
      get?_eq_of_flat alike.entry alike.printable.flatAt_arguments]
  rw [failureLinesOf, failureLinesOf, hint, command, textOr_eq same (leaves "type" (by simp)),
    textOr_eq same (leaves "message" (by simp)), alike.key]

def failureOf? (listed : Listed) : Except Value.Fault (List String) :=
  match Record.get? listed.2 "error" with
  | some (.map error) => failureLinesOf listed error
  | _ => .ok []

theorem Alike.failureOf?_eq (alike : Alike left right) : failureOf? left = failureOf? right := by
  have found := alike.entry.get? "error"
  have leaves := alike.printable.error
  unfold failureOf?
  generalize Record.get? left.2 "error" = held at found leaves
  generalize Record.get? right.2 "error" = kept at found
  cases found with
  | @map entries fields parts => exact alike.failureLinesOf_eq parts (leaves entries rfl)
  | _ => rfl

theorem stageLines_eq (alike : List.Forall₂ Alike lefts rights) :
    stageLines lefts = stageLines rights := by
  rw [stageLines, stageLines, mapM_eq_of_forall₂ alike fun _ _ alike => alike.stageRow_eq]
  cases alike <;> rfl

theorem warningLines_eq (alike : List.Forall₂ Alike lefts rights) :
    warningLines lefts = warningLines rights := by
  rw [warningLines, warningLines,
    mapM_eq_of_forall₂ alike fun _ _ alike => alike.warningLinesOf_eq]

theorem failureLines_eq (alike : List.Forall₂ Alike lefts rights) :
    failureLines lefts = failureLines rights := by
  have parts : lefts.mapM failureOf? = rights.mapM failureOf? :=
    mapM_eq_of_forall₂ alike fun _ _ alike => alike.failureOf?_eq
  change (lefts.mapM failureOf? >>= _) = rights.mapM failureOf? >>= _
  rw [parts]

end Stages

section Ordered

variable {stages others : Record}

/-- A stage as it is listed, if it is a map. -/
def listed? (entry : Scalar × Value) : Option Listed :=
  match entry.2 with
  | .map fields => some (entry.1, fields)
  | _ => none

theorem listed?_eq_some {entry : Scalar × Value} {listed : Listed} :
    listed? entry = some listed ↔ entry = (listed.1, .map listed.2) := by
  obtain ⟨key, value⟩ := entry
  obtain ⟨name, fields⟩ := listed
  cases value <;> simp [listed?]

theorem orderedStages_eq (stages : Record) :
    orderedStages stages = Sorted.sortChecked listedBefore (stages.filterMap listed?) := rfl

theorem nodup_listed (distinct : stages.keys.Nodup) :
    ((stages.filterMap listed?).map Prod.fst).Nodup := by
  have kept : ((stages.filterMap listed?).map Prod.fst).Sublist stages.keys := by
    clear distinct
    induction stages with
    | nil => exact .slnil
    | cons entry rest ih =>
      rw [List.filterMap_cons]
      cases found : listed? entry with
      | none => exact ih.cons _
      | some listed =>
        obtain rfl := listed?_eq_some.mp found
        exact ih.cons_cons _
  exact distinct.sublist kept

theorem PrintableEntry.rankable {entry : Record} (printable : PrintableEntry entry)
    (name : String) : Rankable (.text name, entry) := by
  have ordered : ∃ number, ordinalOf entry = .int number := by
    rw [ordinalOf]
    cases held : Record.get? entry "ordinal" with
    | none => exact ⟨0, rfl⟩
    | some value => exact printable.ordinal value held
  obtain ⟨number, ordered⟩ := ordered
  exact ⟨⟨(.text name, entry), number, name, ordered, rfl⟩, rfl⟩

theorem Alike.rankable {left right : Listed} (alike : Alike left right) (rankable : Rankable left) :
    Rankable right := by
  obtain ⟨ranked, rfl⟩ := rankable
  exact ⟨⟨right, ranked.ordinal, ranked.name, alike.ordinalOf_eq.symm.trans ranked.ordered,
    alike.key.symm.trans ranked.named⟩, rfl⟩

theorem listedBefore_eq {left right other another : Listed} (first : Alike left right)
    (second : Alike other another) : listedBefore left other = listedBefore right another := by
  rw [listedBefore, listedBefore, first.ordinalOf_eq, second.ordinalOf_eq, first.key, second.key]

theorem pairwise_of_alike {lefts rights : List Listed} (alike : List.Forall₂ Alike lefts rights)
    (sorted : rights.Pairwise NotAfter) : lefts.Pairwise NotAfter := by
  induction alike with
  | nil => exact .nil
  | cons head rest ih =>
    obtain ⟨first, later⟩ := List.pairwise_cons.mp sorted
    refine .cons (fun listed member => ?_) (ih later)
    obtain ⟨other, present, same⟩ := exists_of_forall₂ rest member
    exact (listedBefore_eq same head).trans (first other present)

theorem alike_of_paired
    (paired : List.Forall₂ (fun entry field => entry.1 = field.1 ∧ Reordered entry.2 field.2)
      stages others)
    (printable : ∀ stage ∈ stages, ∀ entry, stage.2 = .map entry → PrintableEntry entry) :
    List.Forall₂ Alike (stages.filterMap listed?) (others.filterMap listed?) := by
  induction paired with
  | nil => exact .nil
  | @cons stage other rest remaining pair _ ih =>
    obtain ⟨first, later⟩ := List.forall_mem_cons.mp printable
    obtain ⟨key, value⟩ := stage
    obtain ⟨name, held⟩ := other
    obtain ⟨rfl, same⟩ := pair
    have rests := ih later
    rw [List.filterMap_cons, List.filterMap_cons]
    cases same.shape with
    | map parts => exact .cons ⟨rfl, parts, first _ rfl⟩ rests
    | _ => exact rests

/-- Both listings have the same stages in the same places. -/
theorem orderedStages_alike (same : Reordered (.map stages) (.map others))
    (printable : ∀ stage ∈ stages, ∀ entry, stage.2 = .map entry → PrintableEntry entry) :
    ∃ lefts rights, orderedStages stages = .ok lefts ∧ orderedStages others = .ok rights ∧
      List.Forall₂ Alike lefts rights := by
  obtain ⟨middle, order, paired⟩ := same.entries_perm
  obtain ⟨texts, distinct, -⟩ := same.leftPlain.entries
  have alike := alike_of_paired paired fun stage member =>
    printable stage (order.mem_iff.mpr member)
  have rankable : ∀ listed ∈ stages.filterMap listed?, Rankable listed := by
    intro listed member
    obtain ⟨entry, present, found⟩ := List.mem_filterMap.mp member
    obtain rfl := listed?_eq_some.mp found
    obtain ⟨name, key⟩ := texts _ present
    have ranked := (printable _ present _ rfl).rankable name
    rwa [← key] at ranked
  have listedOrder := order.filterMap listed?
  have othersRankable : ∀ listed ∈ others.filterMap listed?, Rankable listed := by
    intro listed member
    obtain ⟨source, present, alike⟩ := exists_of_forall₂ alike.flip member
    exact alike.rankable (rankable source (listedOrder.mem_iff.mpr present))
  obtain ⟨lefts, leftSorted, leftSame, leftOrder⟩ := exists_sorted rankable
  obtain ⟨rights, rightSorted, rightSame, rightOrder⟩ := exists_sorted othersRankable
  -- the listing of the one side, stage by stage on the other, is in order there too; and stages
  -- with distinct names have one order only
  have arranged : Relation.Comp (List.Forall₂ Alike) List.Perm (middle.filterMap listed?) rights :=
    ⟨others.filterMap listed?, alike, rightSame.symm⟩
  rw [List.forall₂_comp_perm_eq_perm_comp_forall₂] at arranged
  obtain ⟨between, betweenSame, pairs⟩ := arranged
  have whole : lefts.Perm between := leftSame.trans (listedOrder.trans betweenSame)
  have names := (leftSame.map Prod.fst).nodup_iff.mpr (nodup_listed distinct)
  have unique := sorted_unique (fun listed member => rankable listed (leftSame.mem_iff.mp member))
    names whole leftOrder (pairwise_of_alike pairs rightOrder)
  exact ⟨lefts, rights, leftSorted, rightSorted, unique ▸ pairs⟩

end Ordered

section Settings

variable {settings fields inputs other : Record}

theorem byName_of_perm {entries others : List (String × String)}
    (distinct : (entries.map Prod.fst).Nodup) (same : entries.Perm others) :
    byName entries = byName others := by
  have total : Std.Total fun left right : String × String => left.1 ≤ right.1 :=
    ⟨fun left right => le_total left.1 right.1⟩
  have transitive : IsTrans (String × String) fun left right => left.1 ≤ right.1 :=
    ⟨fun _ _ _ first second => le_trans first second⟩
  have sorted (items : List (String × String)) :
      (byName items).Perm items ∧ (byName items).Pairwise fun left right => left.1 ≤ right.1 :=
    ⟨List.perm_insertionSort _ items, List.pairwise_insertionSort _ items⟩
  have moved := (sorted entries).1.trans (same.trans (sorted others).1.symm)
  refine List.Perm.eq_of_pairwise ?_ (sorted entries).2 (sorted others).2 moved
  intro left right member present first second
  have kept := (sorted entries).1.mem_iff.mp (moved.mem_iff.mpr present)
  exact List.inj_on_of_nodup_map distinct ((sorted entries).1.mem_iff.mp member) kept
    (le_antisymm first second)

theorem environmentText_of_perm {entries others : List (String × String)}
    (distinct : (entries.map Prod.fst).Nodup) (same : entries.Perm others) :
    environmentText entries = environmentText others := by
  have emptiness : entries.isEmpty = others.isEmpty := by
    rw [Bool.eq_iff_iff, List.isEmpty_iff, List.isEmpty_iff]
    exact ⟨fun empty => List.nil_perm.mp (empty ▸ same),
      fun empty => List.perm_nil.mp (empty ▸ same)⟩
  rw [environmentText, environmentText, byName_of_perm distinct same, emptiness]

theorem exists_tableOf (plain : (Value.map settings).Plain)
    (texts : ∀ setting ∈ settings, ∃ text, setting.2 = .text text) :
    ∃ entries, settings = tableOf entries ∧ (entries.map Prod.fst).Nodup := by
  obtain ⟨keys, distinct, -⟩ := plain.entries
  have each : ∀ setting ∈ settings, ∃ entry : String × String,
      setting = (.text entry.1, .text entry.2) := by
    intro setting member
    obtain ⟨name, key⟩ := keys setting member
    obtain ⟨text, held⟩ := texts setting member
    exact ⟨(name, text), by rw [← key, ← held]⟩
  obtain ⟨entries, same⟩ := exists_forall₂ each
  have whole := List.forall₂_map_right_iff.mpr same
  rw [List.forall₂_eq_eq_eq] at whole
  refine ⟨entries, whole, ?_⟩
  have names : settings.keys = (entries.map Prod.fst).map .text := by
    rw [whole, Entries.keys, List.map_map, List.map_map]
    rfl
  exact (names ▸ distinct).of_map

theorem perm_of_texts (same : Reordered (.map settings) (.map fields))
    (texts : ∀ setting ∈ settings, ∃ text, setting.2 = .text text) : settings.Perm fields := by
  obtain ⟨middle, order, paired⟩ := same.entries_perm
  have equal : List.Forall₂ (fun entry field => entry = field) middle fields := by
    refine forall₂_imp_mem paired fun entry member field _ pair => ?_
    obtain ⟨text, held⟩ := texts entry (order.mem_iff.mpr member)
    obtain ⟨key, value⟩ := entry
    obtain ⟨name, other⟩ := field
    obtain ⟨rfl, part⟩ := pair
    cases held
    cases part.shape
    rfl
  rw [List.forall₂_eq_eq_eq] at equal
  exact equal ▸ order

theorem environmentLines_eq (same : Reordered (.map inputs) (.map other))
    (texts : ∀ settings, Record.get? inputs "environment" = some (.map settings) →
      ∀ setting ∈ settings, ∃ text, setting.2 = .text text) :
    environmentLines inputs = environmentLines other := by
  have found := same.get? "environment"
  generalize leftHeld : Record.get? inputs "environment" = held at found
  generalize rightHeld : Record.get? other "environment" = kept at found
  cases found with
  | @map settings fields parts =>
    have held := texts settings leftHeld
    have moved := perm_of_texts parts held
    obtain ⟨entries, rfl, distinct⟩ := exists_tableOf parts.leftPlain held
    obtain ⟨others, rfl, -⟩ := exists_tableOf parts.rightPlain fun field member =>
      held field (moved.mem_iff.mpr member)
    have injective : Function.Injective fun entry : String × String =>
        ((.text entry.1, .text entry.2) : Scalar × Value) := by
      rintro ⟨name, text⟩ ⟨other, said⟩ same
      cases same
      rfl
    have same := (List.map_perm_map_iff injective).mp moved
    rw [environmentLines_of_table leftHeld, environmentLines_of_table rightHeld,
      environmentText_of_perm distinct same]
  | _ =>
    unfold environmentLines
    rw [leftHeld, rightHeld]

end Settings

section Whole

variable {left right : Record}

theorem write_eq (same : Reordered (.map left) (.map right)) (layout : Json.Layout) :
    ∃ text, Json.write layout (.map left) = .ok text ∧
      Json.write layout (.map right) = .ok text := by
  obtain ⟨document, first, second⟩ :=
    Json.ofValue_of_rearranged same.leftPlain same.rightPlain same.written same.same
  rw [Json.write, Json.write, first, second]
  exact ⟨_, rfl, rfl⟩

theorem linesOf_eq (same : Reordered (.map left) (.map right)) (printable : Printable left) :
    linesOf left = linesOf right := by
  have run := sectionOf_reordered same "run"
  have inputs := sectionOf_reordered same "inputs"
  have outcome := sectionOf_reordered same "outcome"
  obtain ⟨lefts, rights, leftListed, rightListed, alike⟩ :=
    orderedStages_alike (sectionOf_reordered same "stages") printable.stages
  obtain ⟨text, leftWritten, rightWritten⟩ := write_eq run .indented
  have traced : traceLines (sectionOf left "run") (sectionOf left "inputs") (eventCount left) =
      traceLines (sectionOf right "run") (sectionOf right "inputs") (eventCount right) := by
    rw [traceLines, traceLines, leftWritten, rightWritten, textOr_eq inputs printable.identity,
      textOr_eq run (printable.run "buildgate_version" (by simp)), eventCount_eq same]
  unfold linesOf
  dsimp only
  rw [leftListed, rightListed, traced,
    outcomeLines_eq run outcome printable.run printable.trigger printable.outcome,
    environmentLines_eq inputs printable.environment]
  change (outcomeLines _ _ >>= _) = outcomeLines _ _ >>= _
  rw [stageLines_eq alike, warningLines_eq alike, failureLines_eq alike]

theorem generate_eq {left right : Record} (same : Reordered (.map left) (.map right))
    (printable : Printable left) : generate (.map left) = generate (.map right) := by
  have lines := linesOf_eq same printable
  have emptiness := isEmpty_eq same
  cases left with
  | nil =>
    cases right with
    | nil => rfl
    | cons => cases emptiness
  | cons first rest =>
    cases right with
    | nil => cases emptiness
    | cons other others => rw [generate, generate, lines]

end Whole
end BuildRules.Report
