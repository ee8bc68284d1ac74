import BuildRules.Config.Error
import BuildRules.Text.Blank

namespace BuildRules

inductive Severity where
  | warn
  | deny
deriving DecidableEq

namespace Severity

def name : Severity → String
  | .warn => "warn"
  | .deny => "deny"

def flag : Severity → String
  | .warn => "-W"
  | .deny => "-D"

def ofName? (name : String) : Option Severity :=
  if name == "warn" then some .warn else if name == "deny" then some .deny else none

def ofFlag? (flag : String) : Option Severity :=
  if flag == "-W" then some .warn else if flag == "-D" then some .deny else none

end Severity

structure LintRule where
  name : String
  severity : Severity
  /-- Whether a change of severity is meant. -/
  override : Bool
deriving DecidableEq

/-- A flag and a name, or a map with a name and a severity. -/
def LintRule.parse (raw : Value) : Except PolicyError LintRule :=
  match raw with
  | .text text =>
    match Text.words text with
    | [flag, name] =>
      match Severity.ofFlag? flag with
      | some severity => .ok ⟨name, severity, false⟩
      | none => .error (.raised (.lintMalformed raw))
    | _ => .error (.raised (.lintMalformed raw))
  | .map entries =>
    match Record.get? entries "name" with
    | some (.text name) =>
      if Text.isBlankText name then .error (.raised (.lintNameless raw))
      else
        let given := Record.get? entries "severity"
        let shown := (given.getD (.text "")).display.toOption
        match shown.bind fun text => Severity.ofName? (Text.lowerAscii text) with
        | none => .error (.raised (.lintSeverity name (given.getD .null)))
        | some severity =>
          .ok ⟨Text.trim name, severity,
            ((Record.get? entries "override").getD (.bool false)).truthy⟩
    | _ => .error (.raised (.lintNameless raw))
  | _ => .error (.raised (.lintMalformed raw))

/-- Rules in order of declaration. -/
structure LintPolicy where
  rules : List LintRule
deriving DecidableEq

namespace LintPolicy

/-- Severity of each name, names in order of first appearance. -/
def effectiveOf (rules : List LintRule) : Entries String Severity :=
  rules.foldl (fun table rule => Entries.insert table rule.name rule.severity) []

/-- A change of severity that no override announces. -/
structure Conflict where
  name : String
  before : Severity
  after : Severity
deriving DecidableEq

def Conflict.message (conflict : Conflict) : String :=
  "lint '" ++ conflict.name ++ "' redefinido de " ++ conflict.before.name ++ " para " ++
    conflict.after.name ++ " sem override explícito"

/-- Conflicts of the rules after those that made a table. -/
def conflictsFrom (seen : Entries String Severity) : List LintRule → List Conflict
  | [] => []
  | rule :: rest =>
    let later := conflictsFrom (Entries.insert seen rule.name rule.severity) rest
    match Entries.find? seen rule.name with
    | some before =>
      if before ≠ rule.severity ∧ rule.override = false then
        ⟨rule.name, before, rule.severity⟩ :: later
      else later
    | none => later

def conflictsOf (rules : List LintRule) : List Conflict := conflictsFrom [] rules

def effective (policy : LintPolicy) : Entries String Severity := effectiveOf policy.rules
def conflicts (policy : LintPolicy) : List Conflict := conflictsOf policy.rules

def names (policy : LintPolicy) (severity : Severity) : List String :=
  (policy.effective.filter fun entry => entry.2 == severity).map Prod.fst

def flagPairs (policy : LintPolicy) : List (String × String) :=
  policy.effective.map fun entry => (entry.2.flag, entry.1)

def flags (policy : LintPolicy) : List String :=
  policy.flagPairs.map fun pair => pair.1 ++ pair.2

/-- All flags as one compiler setting. -/
def compilerFlags (policy : LintPolicy) : String := " ".intercalate policy.flags

def parse (raw : Value) : Except PolicyError LintPolicy :=
  match raw with
  | .null => .ok ⟨[]⟩
  | .list items => do .ok ⟨← items.mapM LintRule.parse⟩
  | _ => .error (.raised (.lintSection raw.kind))

end LintPolicy
end BuildRules
