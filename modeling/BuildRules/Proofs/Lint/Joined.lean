import BuildRules.Proofs.Lint.Scan
import BuildRules.Proofs.Run.Step
import BuildRules.Proofs.Text.Line

/-! The output and the diagnostics of a command are scanned as one text. This finds what scans of
the two find. The last headline of the output only gives its text to those violations of the
diagnostics that have no headline of their own above them. -/
namespace BuildRules

open Diagnostic

namespace Violation

/-- All of a violation but its message. -/
def finding (violation : Violation) : String × Severity × String :=
  (violation.lint, violation.severity, violation.note)

/-- The same finding, with the message that a headline gives to it. -/
structure Under (headline : Option String) (violation other : Violation) : Prop where
  finding : other.finding = violation.finding
  message : other.message = headline.getD ("diagnóstico " ++ violation.lint)

def denied (violations : List Violation) : List String := (violations.filter fatal).map lint

theorem denied_eq (violations : List Violation) :
    denied violations = ((violations.map finding).filter fun found => found.2.1 == .deny).map
      Prod.fst := by
  rw [List.filter_map, List.map_map]
  rfl

theorem denied_ne_nil_iff {violations : List Violation} :
    denied violations ≠ [] ↔ ∃ violation ∈ violations, violation.fatal = true := by
  simp [denied]

end Violation

namespace Diagnostic

variable {lines : List Line} {policy : LintPolicy}

theorem readLine_nil (effective : Entries String Severity) : readLine effective [] = .other := rfl

theorem scanLines_others (others : ∀ line ∈ lines, line = .other) (headline : Option String)
    (back : List Line) : scanLines headline (lines ++ back) = scanLines headline back := by
  induction lines with
  | nil => rfl
  | cons line lines ih =>
    obtain ⟨first, rest⟩ := List.forall_mem_cons.mp others
    subst first
    exact ih rest

theorem scanLines_plain (plain : ∀ line ∈ lines, ∀ text, line ≠ .headline text)
    (headline : Option String) :
    List.Forall₂ (Violation.Under headline) (scanLines none lines) (scanLines headline lines) := by
  induction lines with
  | nil => exact .nil
  | cons line lines ih =>
    obtain ⟨first, rest⟩ := List.forall_mem_cons.mp plain
    cases line with
    | headline text => exact absurd rfl (first text)
    | violation lint severity note => exact .cons ⟨rfl, rfl⟩ (ih rest)
    | other => exact ih rest

/-- A headline takes the place of any before it. -/
theorem scanLines_headed (headed : ∀ line ∈ lines.head?, ∃ text, line = .headline text)
    (headline : Option String) : scanLines headline lines = scanLines none lines := by
  cases lines with
  | nil => rfl
  | cons line lines =>
    obtain ⟨text, same⟩ := headed line rfl
    subst same
    rfl

theorem readLine_of_headline {line text : List Char} (headline : Headline (Text.trimChars line) text)
    (effective : Entries String Severity) :
    readLine effective line = .headline (String.ofList text) := by
  rw [readLine]
  simp only [headline?_eq_some_iff.mpr headline]

theorem readLine_ne_headline {line : List Char}
    (plain : ∀ text, ¬ Headline (Text.trimChars line) text) (text : String) :
    readLine policy.effective line ≠ .headline text := by
  intro read
  have understood := LintPolicy.understood_readLine policy line
  rw [read] at understood
  cases understood with
  | headline headline => exact plain _ headline

/-- Lines before the first headline, and those from there on. -/
theorem exists_split (lines : List (List Char)) : ∃ front back, lines = front ++ back ∧
    (∀ line ∈ front, ∀ text, ¬ Headline (Text.trimChars line) text) ∧
    ∀ line ∈ back.head?, ∃ text, Headline (Text.trimChars line) text := by
  induction lines with
  | nil => exact ⟨[], [], rfl, by simp, by simp⟩
  | cons line lines ih =>
    by_cases headed : ∃ text, Headline (Text.trimChars line) text
    · refine ⟨[], line :: lines, rfl, by simp, ?_⟩
      intro first same
      obtain rfl := Option.some.inj same
      exact headed
    · obtain ⟨front, back, whole, plain, rest⟩ := ih
      refine ⟨line :: front, back, by rw [whole, List.cons_append], ?_, rest⟩
      exact List.forall_mem_cons.mpr ⟨not_exists.mp headed, plain⟩

end Diagnostic

namespace LintPolicy

variable {policy : LintPolicy}

/-- Violations of lines that are read on under a headline of other lines: those above the first
headline of their own have its text for a message, and all others are what they are by
themselves. -/
inductive Continued (policy : LintPolicy) (headline : Option String) (lines : List (List Char)) :
    List Violation → List Violation → Prop where
  | intro {front back : List (List Char)} {places : List Nat}
      {early carried late : List Violation} (whole : lines = front ++ back)
      (plain : ∀ line ∈ front, ∀ text, ¬ Headline line text)
      (headed : ∀ line ∈ back.head?, ∃ text, Headline line text)
      (placed : policy.Placed front places early)
      (messages : List.Forall₂ (Violation.Under headline) early carried) :
    Continued policy headline lines (early ++ late) (carried ++ late)

theorem findings_of_under {headline : Option String} {violations others : List Violation}
    (messages : List.Forall₂ (Violation.Under headline) violations others) :
    others.map Violation.finding = violations.map Violation.finding := by
  induction messages with
  | nil => rfl
  | cons head _ ih => rw [List.map_cons, List.map_cons, head.finding, ih]

theorem Continued.findings {headline : Option String} {lines : List (List Char)}
    {alone violations : List Violation}
    (continued : policy.Continued headline lines alone violations) :
    violations.map Violation.finding = alone.map Violation.finding := by
  cases continued with
  | intro _ _ _ _ messages => rw [List.map_append, List.map_append, findings_of_under messages]

theorem continued_scanLines (policy : LintPolicy) (headline : Option String)
    (lines : List (List Char)) :
    policy.Continued headline (lines.map Text.trimChars)
      (scanLines none (lines.map (readLine policy.effective)))
      (scanLines headline (lines.map (readLine policy.effective))) := by
  obtain ⟨front, back, rfl, plain, headed⟩ := exists_split lines
  obtain ⟨places, placed⟩ := placed_scanLines policy front
  have read : ∀ line ∈ front.map (readLine policy.effective), ∀ text, line ≠ .headline text := by
    intro line member
    obtain ⟨source, present, rfl⟩ := List.mem_map.mp member
    exact readLine_ne_headline (plain source present)
  have begun : ∀ line ∈ (back.map (readLine policy.effective)).head?,
      ∃ text, line = .headline text := by
    intro line first
    rw [List.head?_map] at first
    obtain ⟨source, present, rfl⟩ := Option.map_eq_some_iff.mp first
    obtain ⟨text, found⟩ := headed source present
    exact ⟨_, readLine_of_headline found _⟩
  rw [List.map_append, List.map_append, scanLines_append, scanLines_append,
    scanLines_headed begun (headlineAfter none _), scanLines_headed begun (headlineAfter headline _)]
  refine .intro rfl ?_ ?_ placed (scanLines_plain read headline)
  · exact List.forall_mem_map.mpr plain
  · intro line first
    rw [List.head?_map] at first
    obtain ⟨source, present, rfl⟩ := Option.map_eq_some_iff.mp first
    exact headed source present

/-- A scan goes on after a line feed under the last headline before it. -/
theorem scan_append_lineFeed (policy : LintPolicy) (output diagnostics : String) :
    policy.scan (output ++ "\n" ++ diagnostics) = policy.scan output ++
      scanLines (headlineAfter none
        ((Text.linesOfChars output.toList).map (readLine policy.effective)))
        ((Text.linesOfChars diagnostics.toList).map (readLine policy.effective)) := by
  have joined : (output ++ "\n" ++ diagnostics).toList =
      output.toList ++ '\n' :: diagnostics.toList := by simp
  obtain ⟨gap, empty, lines⟩ := Text.lines_joined output.toList diagnostics.toList
  have others : ∀ line ∈ gap.map (readLine policy.effective), line = .other := by
    intro line member
    obtain ⟨between, present, rfl⟩ := List.mem_map.mp member
    rw [empty between present, readLine_nil]
  rw [scan, joined, lines, List.append_assoc, List.map_append, List.map_append]
  rw [scanLines_append, scanLines_others others]
  rfl

end LintPolicy

namespace Runner

open Violation

section Zero

variable {violations : List Violation} (stage : Stage) (arguments : List String)
  (output diagnostics : String)

theorem verdict_of_tolerated (tolerated : denied violations = []) :
    verdict stage arguments ⟨0, output, diagnostics⟩ violations = .ok none :=
  if_pos (List.isEmpty_iff.mpr tolerated)

theorem verdict_of_denied (broken : denied violations ≠ []) :
    verdict stage arguments ⟨0, output, diagnostics⟩ violations =
      .ok (some (.stageLintDenied stage.name (denied violations))) :=
  if_neg (mt List.isEmpty_iff.mp broken)

/-- A command that exits with zero fails its stage just for the lints that are denied. -/
theorem completed_of_zero (runner : Runner) (milliseconds : Int) :
    ∃ error, verdict stage arguments ⟨0, output, diagnostics⟩
        (runner.violations ⟨0, output, diagnostics⟩) = .ok error ∧
      let outcome := runner.completed stage arguments milliseconds ⟨0, output, diagnostics⟩ error
      let lints := denied (runner.policy.lints.scan (output ++ "\n" ++ diagnostics))
      (outcome.status = .failed ↔ lints ≠ []) ∧
        ∀ payload, outcome.error = some payload → payload = .stageLintDenied stage.name lints := by
  by_cases tolerated : denied (runner.policy.lints.scan (output ++ "\n" ++ diagnostics)) = []
  · refine ⟨_, verdict_of_tolerated stage arguments output diagnostics tolerated, ?_, nofun⟩
    simp [completed, tolerated]
  · refine ⟨_, verdict_of_denied stage arguments output diagnostics tolerated, ?_, ?_⟩
    · simp [completed, tolerated]
    · rintro payload ⟨⟩
      rfl

end Zero

end Runner

namespace LintPolicy

open Violation

/-- A scan of two texts that a line feed joins finds in order what scans of the two find. The
messages are the same too, but for the violations above the first headline of the second text:
these are under the last headline of the first. So a command that exits with zero fails its stage
just when a fatal violation is found in its output or in its diagnostics. -/
theorem scan_joined (policy : LintPolicy) (output diagnostics : String) :
    (policy.scan (output ++ "\n" ++ diagnostics)).map finding =
      (policy.scan output).map finding ++ (policy.scan diagnostics).map finding ∧
    (∃ headline violations,
      Nearest ((Text.linesOfChars output.toList).map Text.trimChars) headline ∧
      policy.Continued headline ((Text.linesOfChars diagnostics.toList).map Text.trimChars)
        (policy.scan diagnostics) violations ∧
      policy.scan (output ++ "\n" ++ diagnostics) = policy.scan output ++ violations) ∧
    ∀ (runner : Runner) (stage : Stage) (arguments : List String) (milliseconds : Int),
      runner.policy.lints = policy →
      ∃ error, Runner.verdict stage arguments ⟨0, output, diagnostics⟩
          (runner.violations ⟨0, output, diagnostics⟩) = .ok error ∧
        let outcome := runner.completed stage arguments milliseconds ⟨0, output, diagnostics⟩ error
        (outcome.status = .failed ↔ (∃ violation ∈ policy.scan output, violation.fatal = true) ∨
          ∃ violation ∈ policy.scan diagnostics, violation.fatal = true) ∧
        ∀ payload, outcome.error = some payload → payload = .stageLintDenied stage.name
          (denied (policy.scan output) ++ denied (policy.scan diagnostics)) := by
  have joined := scan_append_lineFeed policy output diagnostics
  have continued := continued_scanLines policy (headlineAfter none
    ((Text.linesOfChars output.toList).map (readLine policy.effective)))
    (Text.linesOfChars diagnostics.toList)
  have findings : (policy.scan (output ++ "\n" ++ diagnostics)).map finding =
      (policy.scan output).map finding ++ (policy.scan diagnostics).map finding := by
    rw [joined, List.map_append, continued.findings]
    rfl
  refine ⟨findings, ⟨_, _, nearest_headlineAfter policy _, continued, joined⟩, ?_⟩
  intro runner stage arguments milliseconds lints
  have both : denied (policy.scan (output ++ "\n" ++ diagnostics)) =
      denied (policy.scan output) ++ denied (policy.scan diagnostics) := by
    simp only [denied_eq, findings, List.filter_append, List.map_append]
  obtain ⟨error, reached, status, payload⟩ :=
    Runner.completed_of_zero stage arguments output diagnostics runner milliseconds
  rw [lints, both] at status payload
  refine ⟨error, reached, ?_, payload⟩
  rw [status, ← denied_ne_nil_iff, ← denied_ne_nil_iff, ne_eq, List.append_eq_nil_iff, not_and_or]

/-- The last headline of the output, whose carriage return takes the line feed to itself. -/
example : scan ⟨[⟨"dead_code", .deny, false⟩]⟩
    ("error: unused\r" ++ "\n" ++ "`#[deny(dead_code)]`") =
      [⟨"dead_code", .deny, "unused", "`#[deny(dead_code)]`"⟩] := by decide +kernel

end LintPolicy
end BuildRules
