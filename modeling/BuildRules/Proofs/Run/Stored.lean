import BuildRules.Proofs.Json.Document
import BuildRules.Run.Manifest

namespace BuildRules

open Value

/-- Reordering keeps texts as keys, and each of them once. -/
theorem Value.Plain.of_rearranged {left right : Value} (plain : left.Plain)
    (same : left.Rearranged right) : right.Plain := by
  induction left using byParts generalizing right with
  | scalar leaf =>
    cases same
    exact .scalar leaf
  | list items ih =>
    cases same with
    | list parts =>
      apply Plain.list
      intro other present
      obtain ⟨item, member, part⟩ := exists_of_forall₂ parts.flip present
      exact ih item member (plain.items item member) part
  | map entries ih =>
    cases right with
    | scalar leaf => cases same
    | list items => cases same
    | map others =>
      obtain ⟨texts, distinct, parts⟩ := plain.entries
      obtain ⟨middle, order, paired⟩ := rearranged_map_iff.mp same
      have keys : (Entries.keys entries).Perm (Entries.keys others) :=
        (order.map Prod.fst).trans (List.Perm.of_eq (forall₂_paired.mp paired).1)
      refine .map ?_ (keys.nodup_iff.mp distinct) ?_
      · intro other present
        obtain ⟨entry, member, pair⟩ := exists_of_forall₂ paired.flip present
        obtain ⟨name, text⟩ := texts entry (order.mem_iff.mpr member)
        exact ⟨name, pair.1.symm.trans text⟩
      · intro other present
        obtain ⟨entry, member, pair⟩ := exists_of_forall₂ paired.flip present
        have kept := order.mem_iff.mpr member
        exact ih entry kept (parts entry kept) pair.2

namespace Manifest

def stagesValue (stages : Entries Scalar Record) : Value :=
  .map (stages.map fun entry => (entry.1, .map entry.2))

/-- Equal up to the order of entries. The order of the events counts. -/
structure Rearranged (left right : Manifest) : Prop where
  run : Value.Rearranged (.map left.run) (.map right.run)
  inputs : Value.Rearranged (.map left.inputs) (.map right.inputs)
  stages : Value.Rearranged (stagesValue left.stages) (stagesValue right.stages)
  events : List.Forall₂ (fun event other => Value.Rearranged (.map event) (.map other))
    left.events right.events
  outcome : Value.Rearranged (.map left.outcome) (.map right.outcome)

theorem Rearranged.toValue {left right : Manifest} (same : left.Rearranged right) :
    Value.Rearranged left.toValue right.toValue := by
  have events : Value.Rearranged (.list (left.events.map .map)) (.list (right.events.map .map)) :=
    .list (List.forall₂_map_left_iff.mpr (List.forall₂_map_right_iff.mpr same.events))
  refine .map (List.Perm.refl _) rfl ?_
  exact .cons same.run (.cons same.inputs (.cons same.stages (.cons events (.cons same.outcome .nil))))

theorem orElse_map (entries : Record) : (Value.map entries).orElse (.map []) = .map entries := by
  cases entries <;> rfl

theorem orElse_list (items : List Value) : (Value.list items).orElse (.list []) = .list items := by
  cases items <;> rfl

/-- Entries that are maps are read as the states of stages. -/
theorem stages_of_maps {fields : Record} (maps : ∀ field ∈ fields, ∃ entry, field.2 = .map entry) :
    ∃ stages : Entries Scalar Record,
      (fields.mapM fun field => do return (field.1, ← field.2.table)) = .ok stages ∧
        .map fields = stagesValue stages := by
  have each : ∀ field ∈ fields, ∃ stage : Scalar × Record, field = (stage.1, .map stage.2) := by
    intro field member
    obtain ⟨entry, held⟩ := maps field member
    exact ⟨(field.1, entry), by rw [← held]⟩
  obtain ⟨stages, parts⟩ := exists_forall₂ each
  refine ⟨stages, mapM_eq_ok.mpr ?_, ?_⟩
  · apply parts.imp
    rintro _ stage rfl
    rfl
  · have same := List.forall₂_map_right_iff.mpr parts
    rw [List.forall₂_eq_eq_eq] at same
    rw [stagesValue, same]

theorem events_of_maps {items : List Value} (maps : ∀ item ∈ items, ∃ event, item = .map event) :
    ∃ events, items.mapM table = .ok events ∧ items = events.map .map := by
  obtain ⟨events, parts⟩ := exists_forall₂ maps
  refine ⟨events, mapM_eq_ok.mpr ?_, ?_⟩
  · apply parts.imp
    rintro _ event rfl
    rfl
  · have same := List.forall₂_map_right_iff.mpr parts
    rwa [List.forall₂_eq_eq_eq] at same

section Sections

variable {entries : Record} {items : List Value} {found : Option Value}

theorem map_of_found (same : Reordered.Found (some (.map entries)) found) :
    ∃ others, found = some (.map others) ∧ Reordered (.map entries) (.map others) := by
  cases same with
  | map parts => exact ⟨_, rfl, parts⟩

theorem list_of_found (same : Reordered.Found (some (.list items)) found) :
    ∃ others, found = some (.list others) ∧ List.Forall₂ Reordered items others := by
  cases same with
  | list parts => exact ⟨_, rfl, parts⟩

theorem maps_of_reordered {fields : Record} (same : Reordered (.map entries) (.map fields))
    (maps : ∀ entry ∈ entries, ∃ part, entry.2 = .map part) :
    ∀ field ∈ fields, ∃ part, field.2 = .map part := by
  intro field present
  obtain ⟨middle, order, paired⟩ := same.entries_perm
  obtain ⟨entry, member, -, part⟩ := exists_of_forall₂ paired.flip present
  obtain ⟨held, shape⟩ := maps entry (order.mem_iff.mpr member)
  rw [shape] at part
  obtain ⟨other, found, -⟩ := map_of_found part.found
  exact ⟨other, Option.some.inj found⟩

end Sections

/-- A value that holds a manifest in another order is read as that manifest. -/
theorem ofValue_of_reordered {manifest : Manifest} {value : Value}
    (same : Reordered manifest.toValue value) :
    ∃ stored, ofValue value = .ok stored ∧ manifest.Rearranged stored := by
  obtain ⟨fields, whole, same⟩ := map_of_found same.found
  cases whole
  obtain ⟨run, runHeld, runSame⟩ := map_of_found (same.get? "run")
  obtain ⟨inputs, inputsHeld, inputsSame⟩ := map_of_found (same.get? "inputs")
  obtain ⟨stages, stagesHeld, stagesSame⟩ := map_of_found (same.get? "stages")
  obtain ⟨items, eventsHeld, eventsSame⟩ := list_of_found (same.get? "events")
  obtain ⟨outcome, outcomeHeld, outcomeSame⟩ := map_of_found (same.get? "outcome")
  have stageMaps := maps_of_reordered stagesSame <| by
    intro entry member
    obtain ⟨stage, -, rfl⟩ := List.mem_map.mp member
    exact ⟨stage.2, rfl⟩
  have eventMaps : ∀ item ∈ items, ∃ event, item = .map event := by
    intro item present
    obtain ⟨_, member, part⟩ := exists_of_forall₂ eventsSame.flip present
    obtain ⟨event, -, rfl⟩ := List.mem_map.mp member
    obtain ⟨other, found, -⟩ := map_of_found part.found
    exact ⟨other, Option.some.inj found⟩
  obtain ⟨entries, stagesRead, stagesShape⟩ := stages_of_maps stageMaps
  obtain ⟨events, eventsRead, rfl⟩ := events_of_maps eventMaps
  refine ⟨⟨run, inputs, entries, events, outcome⟩, ?_, ?_⟩
  -- section by section, in the order in which they are read
  · refine bind_eq_ok.mpr ⟨fields, rfl, ?_⟩
    refine bind_eq_ok.mpr ⟨run, by rw [fieldOr, runHeld]; rfl, ?_⟩
    refine bind_eq_ok.mpr ⟨inputs, by rw [fieldOr, inputsHeld]; rfl, ?_⟩
    refine bind_eq_ok.mpr ⟨stages, by rw [fieldOr, stagesHeld, Option.getD_some, orElse_map]; rfl, ?_⟩
    refine bind_eq_ok.mpr ⟨entries, stagesRead, ?_⟩
    refine bind_eq_ok.mpr
      ⟨events.map .map, by rw [fieldOr, eventsHeld, Option.getD_some, orElse_list]; rfl, ?_⟩
    refine bind_eq_ok.mpr ⟨events, eventsRead, ?_⟩
    refine bind_eq_ok.mpr ⟨outcome, by rw [fieldOr, outcomeHeld, Option.getD_some, orElse_map]; rfl, rfl⟩
  · refine ⟨runSame.same, inputsSame.same, ?_, ?_, outcomeSame.same⟩
    · rw [← stagesShape]
      exact stagesSame.same
    · have parts := List.forall₂_map_left_iff.mp (List.forall₂_map_right_iff.mp eventsSame)
      exact parts.imp fun _ _ part => part.same

variable {manifest : Manifest}

/-- A manifest of plain content is stored just when it can be written, and then read back. -/
theorem read_write (plain : manifest.toValue.Plain) :
    (manifest.toValue.Written ∧ ∃ text stored, manifest.write = .ok text ∧
      Manifest.read text = .ok stored ∧ manifest.Rearranged stored) ∨
    (¬ manifest.toValue.Written ∧ ∃ fault, manifest.write = .error fault) := by
  rcases Json.read_write Json.separates_indented plain with
    ⟨written, text, value, wrote, found, same⟩ | unwritten
  · obtain ⟨stored, read, kept⟩ := ofValue_of_reordered same
    refine .inl ⟨written, text, stored, wrote, ?_, kept⟩
    rw [Manifest.read, found]
    change (ofValue value).mapError ReadError.shape = .ok stored
    rw [read]
    rfl
  · exact .inr unwritten

theorem written_of_write {text : String} (wrote : manifest.write = .ok text) :
    manifest.toValue.Written := by
  cases made : Json.ofValue manifest.toValue with
  | error fault =>
    rw [write, Json.write, made] at wrote
    cases wrote
  | ok document => exact (Json.exists_document_iff.mp ⟨document, made⟩).2

theorem write_of_rearranged {other : Manifest} (plain : manifest.toValue.Plain)
    (written : manifest.toValue.Written) (same : manifest.Rearranged other) :
    other.write = manifest.write := by
  obtain ⟨document, left, right⟩ := Json.ofValue_of_rearranged plain
    (plain.of_rearranged same.toValue) written same.toValue
  rw [write, write, Json.write, Json.write, left, right]

/-- What is stored is read back as it was, and all orders of entries are stored as one text. -/
theorem stored_as_one_text (plain : manifest.toValue.Plain) (written : manifest.toValue.Written) :
    ∃ text stored, manifest.write = .ok text ∧ Manifest.read text = .ok stored ∧
      manifest.Rearranged stored ∧ ∀ other, manifest.Rearranged other → other.write = .ok text := by
  rcases read_write plain with ⟨-, text, stored, wrote, read, kept⟩ | ⟨unwritten, -⟩
  · refine ⟨text, stored, wrote, read, kept, ?_⟩
    intro other same
    rw [write_of_rearranged plain written same, wrote]
  · exact absurd written unwritten

/-- Each of the five sections is plain. -/
theorem plain_toValue (run : (Value.map manifest.run).Plain)
    (inputs : (Value.map manifest.inputs).Plain) (stages : (stagesValue manifest.stages).Plain)
    (events : ∀ event ∈ manifest.events, (Value.map event).Plain)
    (outcome : (Value.map manifest.outcome).Plain) : manifest.toValue.Plain := by
  apply plain_ofFields
  · simp
  · have listed : (Value.list (manifest.events.map .map)).Plain := by
      apply Plain.list
      intro item member
      obtain ⟨event, present, rfl⟩ := List.mem_map.mp member
      exact events event present
    simp only [List.forall_mem_cons]
    exact ⟨run, inputs, stages, listed, outcome, List.forall_mem_nil _⟩

theorem written_toValue (run : (Value.map manifest.run).Written)
    (inputs : (Value.map manifest.inputs).Written)
    (stages : (stagesValue manifest.stages).Written)
    (events : ∀ event ∈ manifest.events, (Value.map event).Written)
    (outcome : (Value.map manifest.outcome).Written) : manifest.toValue.Written := by
  have listed : (Value.list (manifest.events.map .map)).Written := by
    apply Value.Written.list
    intro item member
    obtain ⟨event, present, rfl⟩ := List.mem_map.mp member
    exact events event present
  apply Value.Written.map
  · intro entry member
    obtain ⟨field, -, rfl⟩ := List.mem_map.mp member
    trivial
  · simp only [Record.ofFields, List.map_cons, List.map_nil, List.forall_mem_cons]
    exact ⟨run, inputs, stages, listed, outcome, List.forall_mem_nil _⟩

theorem plain_empty : (Value.map []).Plain :=
  .map (List.forall_mem_nil _) List.nodup_nil (List.forall_mem_nil _)

theorem plain_single {name : String} {value : Value} (plain : value.Plain) :
    (Value.map [(.text name, value)]).Plain :=
  .map (List.forall_mem_singleton.mpr ⟨name, rfl⟩) (List.nodup_singleton _)
    (List.forall_mem_singleton.mpr plain)

theorem written_empty : (Value.map []).Written := .map (List.forall_mem_nil _) (List.forall_mem_nil _)

theorem written_single {name : String} {value : Value} (written : value.Written) :
    (Value.map [(.text name, value)]).Written :=
  .map (List.forall_mem_singleton.mpr trivial) (List.forall_mem_singleton.mpr written)

/-- A manifest with one stage and one event, and marks in a text. -/
def marked : Manifest where
  run := [(.text "run_id", .text "\x22é\x22\n")]
  inputs := []
  stages := [(.text "build", [(.text "ordinal", .int 1)])]
  events := [[(.text "stage", .text "build")]]
  outcome := []

theorem marked_stored_as_one_text :
    marked.toValue.Plain ∧ marked.toValue.Written ∧
      ∃ text stored, marked.write = .ok text ∧ Manifest.read text = .ok stored ∧
        marked.Rearranged stored ∧ ∀ other, marked.Rearranged other → other.write = .ok text := by
  have plain : marked.toValue.Plain :=
    plain_toValue (plain_single (.scalar _)) plain_empty (plain_single (plain_single (.scalar _)))
      (List.forall_mem_singleton.mpr (plain_single (.scalar _))) plain_empty
  have number : (Value.int 1).Written := .int (by decide)
  have written : marked.toValue.Written :=
    written_toValue (written_single (.text _)) written_empty
      (written_single (written_single number))
      (List.forall_mem_singleton.mpr (written_single (.text _))) written_empty
  exact ⟨plain, written, stored_as_one_text plain written⟩

/-- The run holds an integer that has no text. -/
def overlong : Manifest where
  run := [(.text "n", .int Number.overlong)]
  inputs := []
  stages := []
  events := []
  outcome := []

theorem overlong_not_written :
    overlong.toValue.Plain ∧ ∃ fault, overlong.write = .error fault := by
  have plain : overlong.toValue.Plain :=
    plain_toValue (plain_single (.scalar _)) plain_empty plain_empty (List.forall_mem_nil _)
      plain_empty
  refine ⟨plain, ?_⟩
  rcases read_write plain with ⟨written, -⟩ | ⟨-, failed⟩
  · have run := written.entries _ List.mem_cons_self
    have short : Number.isShort Number.overlong = true :=
      (run.entries _ List.mem_cons_self).leaf
    rw [Number.isShort_overlong] at short
    cases short
  · exact failed

end Manifest
end BuildRules
