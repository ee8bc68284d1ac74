import BuildRules.Command
import BuildRules.Policy

namespace BuildRules

def Policy.command (policy : Policy) (environment : Environment) (directory : Option String)
    (arguments : List String) : Command :=
  let flags := policy.lints.compilerFlags
  let vars := environment.vars
  ⟨policy.toolchain :: arguments,
    if flags == "" then vars
    else Entries.insert vars Environment.flagsVariable flags,
    directory⟩

/-- Arguments of a stage: its alias resolved, or those it declares. -/
def Policy.stageArguments (policy : Policy) (stage : Stage) :
    Except ResolutionError (List String) :=
  match stage.alias_ with
  | some name => policy.resolver.resolve name
  | none => .ok stage.arguments

/-- The command of an alias with further arguments. -/
def Policy.aliasCommand (policy : Policy) (environment : Environment)
    (directory : Option String) (name : String) (extra : List String) :
    Except ResolutionError Command := do
  let arguments ← policy.resolver.resolve name
  return policy.command environment directory (arguments ++ extra)

end BuildRules
