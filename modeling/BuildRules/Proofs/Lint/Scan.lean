import BuildRules.Proofs.Lint.Note
import BuildRules.Proofs.Pairing

/-! A scan line by line. Each line that is no headline and notes a lint of the policy gives one
violation, whose message is the last headline above the line; no other line gives one. -/
namespace BuildRules

open Diagnostic

/-- An entry whose name is that of a note, up to hyphens and underscores. -/
def Diagnostic.ReadsLike (name : List Char) (entry : String × Severity) : Prop :=
  Diagnostic.normalize entry.1.toList = Diagnostic.normalize name

namespace LintPolicy

/-- What a line reports: the last effective lint that reads like the name it notes. -/
structure Reports (policy : LintPolicy) (line : List Char) (lint : String) (severity : Severity) :
    Prop where
  plain : ∀ text, ¬ Headline line text
  noted : ∃ name, Noted line name ∧
    First (ReadsLike name) policy.effective.reverse (lint, severity)

/-- The text of the last headline of some lines. -/
inductive Nearest (lines : List (List Char)) : Option String → Prop where
  | none (plain : ∀ line ∈ lines, ∀ text, ¬ Headline line text) : Nearest lines none
  | some {line text : List Char}
      (last : First (fun line => ∃ text, Headline line text) lines.reverse line)
      (headline : Headline line text) : Nearest lines (some (String.ofList text))

/-- The violation that the line at a place reports. -/
structure Describes (policy : LintPolicy) (lines : List (List Char)) (place : Nat)
    (violation : Violation) : Prop where
  line : lines[place]? = some violation.note.toList
  reports : policy.Reports violation.note.toList violation.lint violation.severity
  message : ∃ headline, Nearest (lines.take place) headline ∧
    violation.message = headline.getD ("diagnóstico " ++ violation.lint)

def ReportsAt (policy : LintPolicy) (lines : List (List Char)) (place : Nat) : Prop :=
  ∃ line lint severity, lines[place]? = some line ∧ policy.Reports line lint severity

/-- Violations in line order, one for each place whose line reports one. -/
structure Placed (policy : LintPolicy) (lines : List (List Char)) (places : List Nat)
    (violations : List Violation) : Prop where
  ascending : places.Pairwise (· < ·)
  complete : ∀ place, place ∈ places ↔ policy.ReportsAt lines place
  described : List.Forall₂ (policy.Describes lines) places violations

/-- What a line is for a scan. -/
inductive Understood (policy : LintPolicy) (line : List Char) : Line → Prop where
  | headline {text : List Char} (headline : Headline line text) :
    Understood policy line (.headline (String.ofList text))
  | violation {lint : String} {severity : Severity} (reports : policy.Reports line lint severity) :
    Understood policy line (.violation lint severity (String.ofList line))
  | other (plain : ∀ text, ¬ Headline line text)
      (silent : ∀ lint severity, ¬ policy.Reports line lint severity) :
    Understood policy line .other

end LintPolicy

namespace Diagnostic

theorem lintFor?_eq_some_iff {effective : Entries String Severity} {name : List Char}
    {entry : String × Severity} : lintFor? effective name = some entry ↔
      First (ReadsLike name) effective.reverse entry := by
  rw [lintFor?, List.getLast?_eq_head?_reverse, ← List.filter_reverse, List.head?_filter,
    find?_eq_some_iff_first]
  exact first_congr fun _ _ => beq_iff_eq

/-- The headline in force after lines. -/
def headlineAfter (headline : Option String) : List Line → Option String
  | [] => headline
  | .headline text :: rest => headlineAfter (some text) rest
  | .violation _ _ _ :: rest => headlineAfter headline rest
  | .other :: rest => headlineAfter headline rest

theorem headlineAfter_append (headline : Option String) (front back : List Line) :
    headlineAfter headline (front ++ back) =
      headlineAfter (headlineAfter headline front) back := by
  induction front generalizing headline with
  | nil => rfl
  | cons line front ih => cases line <;> exact ih _

/-- Lines are scanned under the last headline of those before them. -/
theorem scanLines_append (headline : Option String) (front back : List Line) :
    scanLines headline (front ++ back) =
      scanLines headline front ++ scanLines (headlineAfter headline front) back := by
  induction front generalizing headline with
  | nil => rfl
  | cons line front ih =>
    cases line with
    | headline text => exact ih (some text)
    | violation lint severity note => exact congrArg _ (ih headline)
    | other => exact ih headline

end Diagnostic

namespace LintPolicy

variable {policy : LintPolicy} {lines : List (List Char)} {line : List Char}
  {headline : Option String} {places : List Nat} {violations : List Violation}

theorem understood_readLine (policy : LintPolicy) (line : List Char) :
    policy.Understood (Text.trimChars line) (readLine policy.effective line) := by
  rw [readLine]
  cases read : headline? (Text.trimChars line) with
  | some text => exact .headline (headline?_eq_some_iff.mp read)
  | none =>
    have plain : ∀ text, ¬ Headline (Text.trimChars line) text := by
      intro text headline
      rw [headline?_eq_some_iff.mpr headline] at read
      cases read
    cases found : notedName? (Text.trimChars line) with
    | none =>
      refine .other plain ?_
      rintro lint severity ⟨-, name, noted, -⟩
      rw [notedName?_eq_some_iff.mpr noted] at found
      cases found
    | some name =>
      dsimp only
      cases known : lintFor? policy.effective name with
      | none =>
        refine .other plain ?_
        rintro lint severity ⟨-, other, noted, last⟩
        rw [notedName?_eq_some_iff.mpr noted] at found
        cases found
        rw [lintFor?_eq_some_iff.mpr last] at known
        cases known
      | some entry =>
        exact .violation ⟨plain, name, notedName?_eq_some_iff.mp found,
          lintFor?_eq_some_iff.mp known⟩

theorem Nearest.plain (nearest : Nearest lines headline) (plain : ∀ text, ¬ Headline line text) :
    Nearest (lines ++ [line]) headline := by
  cases nearest with
  | none before => exact .none (List.forall_mem_append.mpr ⟨before, by simpa using plain⟩)
  | some last headline =>
    refine .some ?_ headline
    rw [List.reverse_append, List.reverse_singleton]
    exact .later (not_exists.mpr plain) last

theorem nearest_headline {text : List Char} (headline : Headline line text) :
    Nearest (lines ++ [line]) (some (String.ofList text)) := by
  refine .some ?_ headline
  rw [List.reverse_append, List.reverse_singleton]
  exact .here ⟨text, headline⟩

theorem nearest_headlineAfter (policy : LintPolicy) (lines : List (List Char)) :
    Nearest (lines.map Text.trimChars)
      (headlineAfter none (lines.map (readLine policy.effective))) := by
  induction lines using List.reverseRecOn with
  | nil => exact .none (by simp)
  | append_singleton lines line ih =>
    have understood := understood_readLine policy line
    rw [List.map_append, List.map_append, headlineAfter_append, List.map_singleton,
      List.map_singleton]
    generalize readLine policy.effective line = reading at understood ⊢
    cases understood with
    | headline headline => exact nearest_headline headline
    | violation reports => exact ih.plain reports.plain
    | other plain => exact ih.plain plain

theorem Describes.append {place : Nat} {violation : Violation}
    (describes : policy.Describes lines place violation) (further : List (List Char)) :
    policy.Describes (lines ++ further) place violation := by
  obtain ⟨inside, -⟩ := List.getElem?_eq_some_iff.mp describes.line
  refine ⟨?_, describes.reports, ?_⟩
  · rw [List.getElem?_append_left inside]
    exact describes.line
  · rw [List.take_append_of_le_length inside.le]
    exact describes.message

theorem Placed.described_append (placed : policy.Placed lines places violations)
    (further : List (List Char)) :
    List.Forall₂ (policy.Describes (lines ++ further)) places violations :=
  placed.described.imp fun _ _ describes => describes.append further

theorem reportsAt_append {place : Nat} : policy.ReportsAt (lines ++ [line]) place ↔
    policy.ReportsAt lines place ∨
      (place = lines.length ∧ ∃ lint severity, policy.Reports line lint severity) := by
  rcases Nat.lt_trichotomy place lines.length with inside | rfl | outside
  · simp [ReportsAt, List.getElem?_append_left inside, inside.ne]
  · simp [ReportsAt]
  · have here : (lines ++ [line])[place]? = none := List.getElem?_eq_none (by simp; omega)
    have before : lines[place]? = none := List.getElem?_eq_none outside.le
    simp [ReportsAt, here, before, outside.ne']

theorem Placed.silent (placed : policy.Placed lines places violations)
    (silent : ∀ lint severity, ¬ policy.Reports line lint severity) :
    policy.Placed (lines ++ [line]) places violations := by
  refine ⟨placed.ascending, ?_, placed.described_append [line]⟩
  intro place
  rw [reportsAt_append, placed.complete]
  simp [silent]

theorem Placed.reported {violation : Violation} (placed : policy.Placed lines places violations)
    (describes : policy.Describes (lines ++ [line]) lines.length violation) :
    policy.Placed (lines ++ [line]) (places ++ [lines.length]) (violations ++ [violation]) := by
  have last : violation.note.toList = line := by simpa using describes.line.symm
  have inside : ∀ place ∈ places, place < lines.length := by
    intro place member
    obtain ⟨_, _, _, present, -⟩ := (placed.complete place).mp member
    exact (List.getElem?_eq_some_iff.mp present).1
  refine ⟨?_, ?_, ?_⟩
  · rw [List.pairwise_append]
    exact ⟨placed.ascending, List.pairwise_singleton _ _, by simpa using inside⟩
  · intro place
    rw [reportsAt_append, ← placed.complete, List.mem_append, List.mem_singleton]
    have reports := describes.reports
    rw [last] at reports
    exact or_congr_right (iff_self_and.mpr fun _ => ⟨_, _, reports⟩)
  · exact List.rel_append (placed.described_append [line]) (.cons describes .nil)

theorem placed_scanLines (policy : LintPolicy) (lines : List (List Char)) :
    ∃ places, policy.Placed (lines.map Text.trimChars) places
      (scanLines none (lines.map (readLine policy.effective))) := by
  induction lines using List.reverseRecOn with
  | nil => exact ⟨[], .nil, by simp [ReportsAt], .nil⟩
  | append_singleton lines line ih =>
    obtain ⟨places, placed⟩ := ih
    have understood := understood_readLine policy line
    have nearest := nearest_headlineAfter policy lines
    rw [List.map_append, List.map_append, scanLines_append, List.map_singleton,
      List.map_singleton]
    generalize readLine policy.effective line = reading at understood ⊢
    cases understood with
    | headline headline =>
      rw [scanLines, scanLines, List.append_nil]
      exact ⟨places, placed.silent fun lint severity reports => reports.plain _ headline⟩
    | other _ silent =>
      rw [scanLines, scanLines, List.append_nil]
      exact ⟨places, placed.silent silent⟩
    | @violation lint severity reports =>
      rw [scanLines, scanLines]
      refine ⟨_, placed.reported ⟨?_, ?_, ?_⟩⟩
      · simp
      · simpa using reports
      · refine ⟨_, ?_, rfl⟩
        simpa using nearest

theorem Reports.unique {lint other : String} {severity otherSeverity : Severity}
    (reports : policy.Reports line lint severity)
    (again : policy.Reports line other otherSeverity) : lint = other ∧ severity = otherSeverity := by
  obtain ⟨name, noted, last⟩ := reports.noted
  obtain ⟨otherName, otherNoted, otherLast⟩ := again.noted
  have names := (notedName?_eq_some_iff.mpr noted).symm.trans (notedName?_eq_some_iff.mpr otherNoted)
  cases names
  have entries := (lintFor?_eq_some_iff.mpr last).symm.trans (lintFor?_eq_some_iff.mpr otherLast)
  cases entries
  exact ⟨rfl, rfl⟩

/-- A line of an output reports a denied lint. -/
def Denies (policy : LintPolicy) (output : String) : Prop :=
  ∃ line ∈ (Text.linesOfChars output.toList).map Text.trimChars,
    ∃ lint, policy.Reports line lint .deny

theorem exists_denied_iff (policy : LintPolicy) (output : String) :
    (∃ violation ∈ policy.scan output, violation.severity = .deny) ↔ policy.Denies output := by
  obtain ⟨places, placed⟩ := placed_scanLines policy (Text.linesOfChars output.toList)
  constructor
  · rintro ⟨violation, member, denied⟩
    obtain ⟨place, -, describes⟩ := exists_of_forall₂ placed.described.flip member
    refine ⟨_, List.mem_of_getElem? describes.line, violation.lint, ?_⟩
    rw [← denied]
    exact describes.reports
  · rintro ⟨line, present, lint, reports⟩
    obtain ⟨place, found⟩ := List.mem_iff_getElem?.mp present
    obtain ⟨violation, member, describes⟩ := exists_of_forall₂ placed.described
      ((placed.complete place).mpr ⟨line, lint, .deny, found, reports⟩)
    have here : line = violation.note.toList := Option.some.inj (found.symm.trans describes.line)
    rw [here] at reports
    exact ⟨violation, member, (describes.reports.unique reports).2⟩

/-- An output has one violation for each of its lines that reports one, in line order, and each of
them is of an effective lint. -/
theorem scan_by_lines (policy : LintPolicy) (output : String) :
    (∃ places, policy.Placed ((Text.linesOfChars output.toList).map Text.trimChars) places
      (policy.scan output)) ∧
    ∀ violation ∈ policy.scan output, (violation.lint, violation.severity) ∈ policy.effective := by
  obtain ⟨places, placed⟩ := placed_scanLines policy (Text.linesOfChars output.toList)
  refine ⟨⟨places, placed⟩, ?_⟩
  intro violation member
  obtain ⟨place, -, describes⟩ := exists_of_forall₂ placed.described.flip member
  obtain ⟨name, -, last⟩ := describes.reports.noted
  exact List.mem_reverse.mp last.mem

/-- The policy decides the spelling and the severity, whatever the note says. -/
example : scan ⟨[⟨"dead_code", .warn, false⟩]⟩ "error[E1]: unused\n  `#[deny(dead-code)]`" =
    [⟨"dead_code", .warn, "unused", "`#[deny(dead-code)]`"⟩] := by decide +kernel

end LintPolicy
end BuildRules
