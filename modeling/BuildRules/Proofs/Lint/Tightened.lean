import BuildRules.Lint.Diagnostic
import Mathlib.Data.List.Forall2

namespace BuildRules

/-- At least as severe: the same, or a denial in place of a warning. -/
inductive Severity.Tightens : Severity → Severity → Prop where
  | same (severity : Severity) : Tightens severity severity
  | raised : Tightens .deny .warn

theorem Severity.Tightens.denies {strict lax : Severity} (tightens : strict.Tightens lax)
    (denied : lax = .deny) : strict = .deny := by
  cases tightens with
  | same => exact denied
  | raised => rfl

structure LintRule.Tightens (strict lax : LintRule) : Prop where
  name : strict.name = lax.name
  severity : strict.severity.Tightens lax.severity

structure Violation.Tightens (strict lax : Violation) : Prop where
  lint : strict.lint = lax.lint
  message : strict.message = lax.message
  note : strict.note = lax.note
  severity : strict.severity.Tightens lax.severity

namespace LintPolicy

def Tightens (strict lax : LintPolicy) : Prop :=
  List.Forall₂ LintRule.Tightens strict.rules lax.rules

def Entry.Tightens (strict lax : String × Severity) : Prop :=
  strict.1 = lax.1 ∧ strict.2.Tightens lax.2

variable {strict lax : Entries String Severity}

theorem insert_tightened (tables : List.Forall₂ Entry.Tightens strict lax) (name : String)
    {strictly laxly : Severity} (tightens : strictly.Tightens laxly) :
    List.Forall₂ Entry.Tightens (Entries.insert strict name strictly)
      (Entries.insert lax name laxly) := by
  induction tables with
  | nil => exact .cons ⟨rfl, tightens⟩ .nil
  | @cons first second strict lax head tables ih =>
    obtain ⟨candidate, severity⟩ := first
    obtain ⟨_, other⟩ := second
    obtain ⟨rfl, severities⟩ := head
    simp only [Entries.insert]
    split
    · exact .cons ⟨rfl, tightens⟩ tables
    · exact .cons ⟨rfl, severities⟩ ih

/-- The last rule of a name decides in both. -/
theorem effective_tightened {strict lax : LintPolicy} (tightens : strict.Tightens lax) :
    List.Forall₂ Entry.Tightens strict.effective lax.effective := by
  refine List.rel_foldl (P := List.Forall₂ Entry.Tightens) (R := LintRule.Tightens) ?_ .nil tightens
  intro table other tables rule looser rules
  dsimp only
  rw [← rules.name]
  exact insert_tightened tables rule.name rules.severity

end LintPolicy

namespace Diagnostic

open LintPolicy

variable {strict lax : Entries String Severity}

/-- A name is that of one lint in both. -/
theorem lintFor?_tightened (tables : List.Forall₂ Entry.Tightens strict lax) (name : List Char) :
    Option.Rel Entry.Tightens (lintFor? strict name) (lintFor? lax name) := by
  have reads (entry other : String × Severity) (same : Entry.Tightens entry other) :
      (normalize entry.1.toList == normalize name) = true ↔
        (normalize other.1.toList == normalize name) = true := by
    rw [same.1]
  have reversed := List.rel_reverse (List.rel_filter (fun _ _ same => reads _ _ same) tables)
  rw [lintFor?, lintFor?, List.getLast?_eq_head?_reverse, List.getLast?_eq_head?_reverse]
  generalize (List.filter _ strict).reverse = found at reversed ⊢
  generalize (List.filter _ lax).reverse = others at reversed ⊢
  cases reversed with
  | nil => exact .none
  | cons head _ => exact .some head

inductive Line.Tightens : Line → Line → Prop where
  | headline (text : String) : Tightens (.headline text) (.headline text)
  | violation (lint note : String) {strict lax : Severity} (severity : strict.Tightens lax) :
    Tightens (.violation lint strict note) (.violation lint lax note)
  | other : Tightens .other .other

theorem readLine_tightened (tables : List.Forall₂ Entry.Tightens strict lax) (line : List Char) :
    (readLine strict line).Tightens (readLine lax line) := by
  unfold readLine
  dsimp only
  cases headline? (Text.trimChars line) with
  | some text => exact .headline _
  | none =>
    cases notedName? (Text.trimChars line) with
    | none => exact .other
    | some name =>
      have lints := lintFor?_tightened tables name
      dsimp only
      generalize lintFor? strict name = found at lints ⊢
      generalize lintFor? lax name = other at lints ⊢
      cases lints with
      | none => exact .other
      | @some first second same =>
        obtain ⟨lint, severity⟩ := first
        obtain ⟨_, level⟩ := second
        obtain ⟨rfl, severities⟩ := same
        exact .violation _ _ severities

theorem scanLines_tightened {lines others : List Line}
    (parts : List.Forall₂ Line.Tightens lines others) (headline : Option String) :
    List.Forall₂ Violation.Tightens (scanLines headline lines) (scanLines headline others) := by
  induction parts generalizing headline with
  | nil => exact .nil
  | cons head _ ih =>
    cases head with
    | headline text => exact ih (some text)
    | violation lint note severity => exact .cons ⟨rfl, rfl, rfl, severity⟩ (ih headline)
    | other => exact ih headline

end Diagnostic

namespace LintPolicy

variable {strict lax : LintPolicy}

theorem scan_tightened (tightens : strict.Tightens lax) (output : String) :
    List.Forall₂ Violation.Tightens (strict.scan output) (lax.scan output) := by
  apply Diagnostic.scanLines_tightened
  refine List.forall₂_map_left_iff.mpr (List.forall₂_map_right_iff.mpr ?_)
  exact List.forall₂_same.mpr fun line _ =>
    Diagnostic.readLine_tightened (effective_tightened tightens) line

end LintPolicy
end BuildRules
