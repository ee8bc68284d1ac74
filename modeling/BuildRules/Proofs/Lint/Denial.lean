import BuildRules.Proofs.Lint.Conflict
import BuildRules.Proofs.Run.FirstFailure

namespace BuildRules

namespace Diagnostic

def Reads (left right : String) : Prop := normalize left.toList = normalize right.toList

instance (left right : String) : Decidable (Reads left right) :=
  inferInstanceAs (Decidable (normalize left.toList = normalize right.toList))

/-- The note of a lint that the command line denies. -/
def denyNote (name : List Char) : List Char :=
  "= note: requested on the command line with `-D ".toList ++ (name ++ ['`'])

theorem isNameChar_of_normalize {name other : List Char} (same : normalize name = normalize other)
    (named : ∀ c ∈ other, isNameChar c = true) : ∀ c ∈ name, isNameChar c = true := by
  intro c member
  have image : (if c == '-' then '_' else c) ∈ normalize name := List.mem_map_of_mem member
  rw [same] at image
  obtain ⟨origin, present, equal⟩ := List.mem_map.mp image
  have letter := named origin present
  by_cases hyphen : c = '-'
  · subst hyphen
    rfl
  · by_cases respelled : origin = '-'
    · have underscore : c = '_' := by simpa [hyphen, respelled] using equal.symm
      subst underscore
      rfl
    · have unchanged : origin = c := by simpa [hyphen, respelled] using equal
      exact unchanged ▸ letter

theorem commandLineHere_of_head_ne {c : Char} (other : c ≠ 'r') (rest : List Char) :
    commandLineHere (c :: rest) = none := by
  have apart : ('r' == c) = false := by simpa using other.symm
  have missing : after? "requested on the command line with `-" (c :: rest) = none := by
    have begins : ("requested on the command line with `-".toList).isPrefixOf (c :: rest) =
        false := by
      have head : "requested on the command line with `-".toList =
          'r' :: "equested on the command line with `-".toList := by decide
      rw [head, List.isPrefixOf_cons_cons, apart, Bool.false_and]
    rw [after?, begins]
    rfl
  rw [commandLineHere, missing]
  rfl

theorem search_append_of_head_ne {front : List Char} (apart : ∀ c ∈ front, c ≠ 'r')
    (rest : List Char) :
    search commandLineHere (front ++ rest) = search commandLineHere rest := by
  induction front with
  | nil => rfl
  | cons c front ih =>
    obtain ⟨other, apart⟩ := List.forall_mem_cons.mp apart
    rw [List.cons_append, search, commandLineHere_of_head_ne other, ih apart]
    rfl

theorem search_of_here {α : Type} {here : List Char → Option α} {chars : List Char} {found : α}
    (hit : here chars = some found) : search here chars = some found := by
  cases chars with
  | nil => exact hit
  | cons c rest =>
    rw [search, hit]
    rfl

theorem notedName?_denyNote {name : List Char} (nonempty : name ≠ [])
    (named : ∀ c ∈ name, isNameChar c = true) : notedName? (denyNote name) = some name := by
  have here : commandLineHere ("requested on the command line with `-D ".toList ++
      (name ++ ['`'])) = some name := by
    have blank : isBlank ' ' = true := by decide
    have level : "requested on the command line with `-D ".toList =
        "requested on the command line with `-".toList ++ ['D', ' '] := rfl
    have note := FlagNote.intro (.inr rfl) (List.forall_mem_singleton.mpr blank) ⟨nonempty, named⟩ []
    rw [level, List.append_assoc]
    exact commandLineHere_eq_some_iff.mpr note
  have found : search commandLineHere (denyNote name) = some name := by
    have split : denyNote name = "= note: ".toList ++
        ("requested on the command line with `-D ".toList ++ (name ++ ['`'])) := rfl
    have apart : ∀ c ∈ "= note: ".toList, c ≠ 'r' := by
      intro c member
      have other : ("= note: ".toList.all fun c => c != 'r') = true := by decide
      simpa using List.all_eq_true.mp other c member
    rw [split, search_append_of_head_ne apart]
    exact search_of_here here
  rw [notedName?, found]
  rfl

theorem headline?_denyNote (name : List Char) : headline? (denyNote name) = none := rfl

end Diagnostic

namespace Runner

/-- A stage whose output has a line that reports a denied lint fails, whatever its exit code. -/
theorem failed_of_denies {runner : Runner} {stage : Stage} {command : Command}
    {before after : Progress} {outcome : StageOutcome} {result : CommandResult}
    (denies : runner.policy.lints.Denies (result.output ++ "\n" ++ result.diagnostics))
    (answered : runner.world.executor before.commands.length command = .ok result)
    (ran : Returns (runner.runStage stage command) before outcome after) :
    outcome.status = .failed := by
  obtain ⟨step, next⟩ :
      ∃ step, step = runner.step before.commands.length before.readings stage command := ⟨_, rfl⟩
  have response : step.response = .ok result := by
    rw [next]
    exact answered
  rcases (runStage_ends before next).at_returns ran with ⟨-, ended, -⟩ | ⟨error, -, raised, -⟩
  · obtain rfl := Except.ok.inj ended
    have broken : (step.outcome runner).status ≠ .success := by
      rw [ne_eq, step.success_iff_not_breaks, not_not, response]
      exact .inr denies
    rw [Step.outcome_of_ok response] at broken ⊢
    simpa [completed] using broken
  · cases raised

end Runner

namespace LintPolicy

open Diagnostic

variable {policy : LintPolicy} {rule : LintRule} {name line : List Char} {output : String}

/-- The last effective lint that reads like a name is denied. -/
def LastDenies (policy : LintPolicy) (name : String) : Prop :=
  ∃ lint, First (ReadsLike name.toList) policy.effective.reverse (lint, .deny)

/-- What a note says of a lint is the last effective lint that reads like it. -/
theorem reports_denyNote_iff (nonempty : name ≠ [])
    (named : ∀ c ∈ name, isNameChar c = true) {lint : String} {severity : Severity} :
    policy.Reports (denyNote name) lint severity ↔
      First (ReadsLike name) policy.effective.reverse (lint, severity) := by
  have noted := notedName?_eq_some_iff.mp (notedName?_denyNote nonempty named)
  constructor
  · rintro ⟨-, other, found, last⟩
    have same := (notedName?_eq_some_iff.mpr noted).symm.trans (notedName?_eq_some_iff.mpr found)
    cases same
    exact last
  · intro last
    refine ⟨fun text headline => ?_, name, noted, last⟩
    rw [← headline?_eq_some_iff, headline?_denyNote] at headline
    cases headline

/-- Without overrides and conflicts the rules of one spelling agree, so a denied lint stays denied
if no other spelling of it is only warned of. -/
theorem lastDenies_of_agreed (plain : ∀ rule ∈ policy.rules, rule.override = false)
    (agreed : policy.conflicts = []) (member : rule ∈ policy.rules)
    (denied : rule.severity = .deny) (respelled : ∀ other ∈ policy.rules,
      Reads other.name rule.name → other.name ≠ rule.name → other.severity = .deny) :
    policy.LastDenies rule.name := by
  obtain ⟨severity, entry⟩ := exists_mem_effectiveOf member
  obtain ⟨⟨lint, level⟩, last⟩ : ∃ found,
      First (ReadsLike rule.name.toList) policy.effective.reverse found :=
    exists_first ⟨_, List.mem_reverse.mpr entry, rfl⟩
  obtain ⟨source, declared, origin⟩ := rule_of_mem_effectiveOf (List.mem_reverse.mp last.mem)
  obtain ⟨rfl, rfl⟩ := Prod.mk.inj origin
  have severity : source.severity = .deny := by
    by_cases spelled : source.name = rule.name
    · rw [agrees_of_conflictsOf agreed plain source declared rule member spelled, denied]
    · exact respelled source declared last.hit spelled
  rw [severity] at last
  exact ⟨_, last⟩

/-- A line of an output has a fatal violation if what it reports is denied. -/
theorem exists_fatal_iff (here : line ∈ (Text.linesOfChars output.toList).map Text.trimChars) :
    (∃ violation ∈ policy.scan output, violation.note = String.ofList line ∧
      violation.fatal = true) ↔ ∃ lint, policy.Reports line lint .deny := by
  obtain ⟨places, placed⟩ := placed_scanLines policy (Text.linesOfChars output.toList)
  constructor
  · rintro ⟨violation, scanned, text, fatal⟩
    obtain ⟨place, -, describes⟩ := exists_of_forall₂ placed.described.flip scanned
    have denied : violation.severity = .deny := by simpa [Violation.fatal] using fatal
    have reports := describes.reports
    rw [text, String.toList_ofList, denied] at reports
    exact ⟨_, reports⟩
  · rintro ⟨lint, reported⟩
    obtain ⟨place, found⟩ := List.mem_iff_getElem?.mp here
    obtain ⟨violation, scanned, describes⟩ := exists_of_forall₂ placed.described
      ((placed.complete place).mpr ⟨_, lint, .deny, found, reported⟩)
    have text : line = violation.note.toList :=
      Option.some.inj (found.symm.trans describes.line)
    have reports := describes.reports
    rw [← text] at reports
    have severity := (reports.unique reported).2
    exact ⟨violation, scanned, by rw [text, String.ofList_toList],
      by simp [Violation.fatal, severity]⟩

/-- The note of a lint of the policy is fatal, to the scan and to every stage with such an output,
just where the last effective lint that reads like it is denied. In a policy without overrides and
conflicts that is so of every denied lint of which no other spelling is only warned of. -/
theorem note_of_denied_is_fatal {raw : Value} (parsed : LintPolicy.parse raw = .ok policy)
    (member : rule ∈ policy.rules) (named : ∀ c ∈ rule.name.toList, isNameChar c = true)
    (reads : Diagnostic.normalize name = Diagnostic.normalize rule.name.toList)
    (present : line ∈ Text.linesOfChars output.toList)
    (note : Text.trimChars line = denyNote name) :
    ((∃ violation ∈ policy.scan output, violation.note = String.ofList (denyNote name) ∧
      violation.fatal = true) ↔ policy.LastDenies rule.name) ∧
    (policy.LastDenies rule.name → ∀ (runner : Runner) (stage : Stage) (command : Command)
      (before after : Progress) (outcome : StageOutcome) (result : CommandResult),
      runner.policy.lints = policy → result.output ++ "\n" ++ result.diagnostics = output →
      runner.world.executor before.commands.length command = .ok result →
      Returns (runner.runStage stage command) before outcome after → outcome.status = .failed) ∧
    ((∀ rule ∈ policy.rules, rule.override = false) → policy.conflicts = [] →
      rule.severity = .deny → (∀ other ∈ policy.rules, Reads other.name rule.name →
        other.name ≠ rule.name → other.severity = .deny) → policy.LastDenies rule.name) := by
  have nonempty : name ≠ [] := by
    rintro rfl
    obtain ⟨item, read⟩ := rule_of_parse parsed member
    have empty : rule.name.toList = [] := by simpa [Diagnostic.normalize] using reads.symm
    exact LintRule.name_ne_of_parse read (by simpa using empty)
  have letters := isNameChar_of_normalize reads named
  have same {found : String × Severity} :
      First (ReadsLike name) policy.effective.reverse found ↔
        First (ReadsLike rule.name.toList) policy.effective.reverse found := by
    refine first_congr fun entry _ => ?_
    rw [ReadsLike, ReadsLike, reads]
  have here : denyNote name ∈ (Text.linesOfChars output.toList).map Text.trimChars :=
    List.mem_map.mpr ⟨line, present, note⟩
  have denies : (∃ lint, policy.Reports (denyNote name) lint .deny) ↔
      policy.LastDenies rule.name :=
    exists_congr fun lint => (reports_denyNote_iff nonempty letters).trans same
  refine ⟨(exists_fatal_iff here).trans denies, ?_, fun plain agreed denied respelled =>
    lastDenies_of_agreed plain agreed member denied respelled⟩
  rintro last runner stage command before after outcome result rfl rfl answered ran
  obtain ⟨lint, reported⟩ := denies.mpr last
  exact Runner.failed_of_denies ⟨_, here, lint, reported⟩ answered ran

/-- One lint denied with an underscore in its name, and one warned of. -/
def unwrapDenied : LintPolicy :=
  ⟨[⟨"clippy::unwrap_used", .deny, false⟩, ⟨"dead_code", .warn, false⟩]⟩

def unwrapOutput : String :=
  "error: used\n  = note: requested on the command line with `-D clippy::unwrap-used`"

theorem unwrapDenied_is_fatal :
    LintPolicy.parse (.ofTexts ["-D clippy::unwrap_used", "-W dead_code"]) = .ok unwrapDenied ∧
    unwrapDenied.LastDenies "clippy::unwrap_used" ∧
    ∃ violation ∈ unwrapDenied.scan unwrapOutput,
      violation.note = String.ofList (denyNote "clippy::unwrap-used".toList) ∧
      violation.fatal = true := by
  have parsed : LintPolicy.parse (.ofTexts ["-D clippy::unwrap_used", "-W dead_code"]) =
      .ok unwrapDenied := rfl
  have member : ⟨"clippy::unwrap_used", .deny, false⟩ ∈ unwrapDenied.rules := List.mem_cons_self
  have present : "  = note: requested on the command line with `-D clippy::unwrap-used`".toList ∈
      Text.linesOfChars unwrapOutput.toList := by decide +kernel
  have named : ("clippy::unwrap_used".toList.all isNameChar) = true := by decide
  have reads : Diagnostic.normalize "clippy::unwrap-used".toList =
      Diagnostic.normalize "clippy::unwrap_used".toList := by decide
  obtain ⟨fatal, -, last⟩ := note_of_denied_is_fatal parsed member (List.all_eq_true.mp named)
    reads present (by decide +kernel)
  have denied := last (by decide) (by decide) rfl (by decide)
  exact ⟨parsed, denied, fatal.mpr denied⟩

/-- A denial is lost where the policy goes on to warn of the same lint in another spelling. -/
theorem respelled_denial_is_no_conflict :
    LintPolicy.parse (.ofTexts ["-D unwrap-used", "-W unwrap_used"]) =
      .ok ⟨[⟨"unwrap-used", .deny, false⟩, ⟨"unwrap_used", .warn, false⟩]⟩ ∧
    conflicts ⟨[⟨"unwrap-used", .deny, false⟩, ⟨"unwrap_used", .warn, false⟩]⟩ = [] ∧
    scan ⟨[⟨"unwrap-used", .deny, false⟩, ⟨"unwrap_used", .warn, false⟩]⟩
      "= note: requested on the command line with `-D unwrap-used`" =
      [⟨"unwrap_used", .warn, "diagnóstico unwrap_used",
        "= note: requested on the command line with `-D unwrap-used`"⟩] :=
  ⟨rfl, by decide, by decide +kernel⟩

end LintPolicy
end BuildRules
