import BuildRules.Failure

namespace BuildRules

structure Command where
  /-- The program and its arguments. -/
  arguments : List String
  /-- Variables added to the environment. -/
  vars : Entries String String
  directory : Option String
deriving DecidableEq

namespace Command

def program (command : Command) : String := command.arguments.headD ""

private def reasonDetails (command : Command) (reason : String) : Record :=
  .ofFields [("argv", .ofTexts command.arguments), ("reason", .text reason)]

/-- The failure of a command that could not be started. -/
def launchFailure (command : Command) (reason : String) : Failure :=
  ⟨.launch, "Falha ao iniciar '" ++ command.program ++ "': " ++ reason,
    command.reasonDetails reason, some Payload.launchHint⟩

/-- The failure of a command that its operator ended. -/
def cancelFailure (command : Command) : Failure :=
  ⟨.cancelled, "Processo '" ++ command.program ++ "' interrompido",
    command.reasonDetails "cancelled", none⟩

end Command

structure CommandResult where
  code : Int
  output : String
  diagnostics : String
deriving DecidableEq

def CommandResult.ok (result : CommandResult) : Bool := result.code == 0

/-- What ends a command without a result. -/
inductive Interruption where
  | failure (failure : Failure)
  /-- A failure of the executor itself, known by its class and its text, if it has one. -/
  | foreign (kind : String) (message : Except Value.Fault String)

/-- The outcome of one command. -/
abbrev Response := Except Interruption CommandResult

/-- An executor: the answer to each command, which may depend on its number. -/
abbrev Executor := Nat → Command → Response

end BuildRules
