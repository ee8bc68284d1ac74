import BuildRules.Proofs.Report.Run

namespace BuildRules.Report

def ListsFailure (manifest : Manifest) (text name : String) : Prop :=
  ∃ stages details front back,
    orderedStages (manifest.stages.map fun entry => (entry.1, .map entry.2)) = .ok stages ∧
    failureLines stages = .ok details ∧ "### " ++ name ∈ details ∧
    text = "\n".intercalate
      (front ++ ["", "## Failure Details"] ++ details ++ ["", "## Environment"] ++ back) ++ "\n"

theorem generate_eq_ok {first : Scalar × Value} {rest : Record} {text : String}
    (made : generate (.map (first :: rest)) = .ok text) :
    ∃ lines, linesOf (first :: rest) = .ok lines ∧ text = "\n".intercalate lines ++ "\n" := by
  rw [generate] at made
  split at made
  next lines read =>
    cases made
    exact ⟨lines, read, rfl⟩
  next => cases made

theorem mem_orderedStages {manifest : Manifest} {name : String} {entry : Record}
    {stages : List Listed} (held : Entries.find? manifest.stages (.text name) = some entry)
    (listed : orderedStages (manifest.stages.map fun entry => (entry.1, .map entry.2)) =
      .ok stages) : (.text name, entry) ∈ stages := by
  apply (Sorted.perm_of_sortChecked listed).mem_iff.mpr
  have present := Entries.mem_of_find? (Scalar.exact_text name) held
  exact List.mem_filterMap.mpr
    ⟨(.text name, .map entry), List.mem_map.mpr ⟨(.text name, entry), present, rfl⟩, rfl⟩

theorem heading_mem {listed : Listed} {error : Record} {name : String} {lines : List String}
    (named : listed.1.display = .ok name) (told : failureLinesOf listed error = .ok lines) :
    "### " ++ name ∈ lines := by
  rw [failureLinesOf, named] at told
  obtain ⟨shown, same, told⟩ := bind_eq_ok.mp told
  obtain rfl := Except.ok.inj same
  obtain ⟨type, -, told⟩ := bind_eq_ok.mp told
  obtain ⟨message, -, told⟩ := bind_eq_ok.mp told
  obtain ⟨hint, -, told⟩ := bind_eq_ok.mp told
  obtain ⟨command, -, told⟩ := bind_eq_ok.mp told
  cases told
  exact List.mem_cons_self

theorem heading_mem_failureLines {stages : List Listed} {name : String} {entry error : Record}
    {details : List String} (member : (.text name, entry) ∈ stages)
    (failed : Record.get? entry "error" = some (.map error))
    (told : failureLines stages = .ok details) : "### " ++ name ∈ details := by
  obtain ⟨parts, each, told⟩ := bind_eq_ok.mp told
  obtain ⟨part, inside, own⟩ := exists_of_forall₂ (mapM_eq_ok.mp each) member
  dsimp only at own
  rw [failed] at own
  have heading := List.mem_flatten.mpr ⟨part, inside, heading_mem rfl own⟩
  dsimp only at told
  rw [if_neg (by simpa using List.ne_nil_of_mem heading)] at told
  cases told
  exact heading

/-- Every report of a manifest lists the stages whose entries hold an error. -/
theorem listsFailure_of_error {manifest : Manifest} {name text : String} {entry error : Record}
    (held : Entries.find? manifest.stages (.text name) = some entry)
    (failed : Record.get? entry "error" = some (.map error))
    (made : generate manifest.toValue = .ok text) : ListsFailure manifest text name := by
  obtain ⟨lines, read, rfl⟩ := generate_eq_ok made
  obtain ⟨-, -, stagesHeld, -, -⟩ := sectionOf_fieldsOf manifest
  change linesOf (fieldsOf manifest) = .ok lines at read
  rw [linesOf, stagesHeld] at read
  obtain ⟨stages, listed, read⟩ := bind_eq_ok.mp read
  obtain ⟨outcome, -, read⟩ := bind_eq_ok.mp read
  obtain ⟨rows, -, read⟩ := bind_eq_ok.mp read
  obtain ⟨warnings, -, read⟩ := bind_eq_ok.mp read
  obtain ⟨details, told, read⟩ := bind_eq_ok.mp read
  obtain ⟨settings, -, read⟩ := bind_eq_ok.mp read
  obtain ⟨trace, -, read⟩ := bind_eq_ok.mp read
  have heading := heading_mem_failureLines (mem_orderedStages held listed) failed told
  cases read
  refine ⟨stages, details, ["# CI Report\n", "## Outcome"] ++ outcome ++ ["", "## Stages"] ++
    rows ++ ["", "## Lint Warnings"] ++ warnings,
    settings ++ ["", "## Traceability"] ++ trace, listed, told, heading, ?_⟩
  simp only [List.append_assoc]

end BuildRules.Report
