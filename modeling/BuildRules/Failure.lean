import BuildRules.Alias.Expansion
import BuildRules.Lint.Diagnostic
import BuildRules.Value.Sequence

namespace BuildRules

/-- A failure with data that its reporter chose freely. -/
inductive Failure.Kind where
  | general
  | aliasResolution
  | aliasCycle
  | aliasUnknown
  | aliasDepth
  | lintViolation
  | stage
  | launch
  | cancelled
deriving DecidableEq

structure Failure where
  kind : Failure.Kind
  message : String
  details : Record
  hint : Option String

namespace Failure

/-- The code of a kind in records. -/
def Kind.code : Kind → String
  | .general => "BuildGateException"
  | .aliasResolution => "AliasResolutionError"
  | .aliasCycle => "CyclicAliasError"
  | .aliasUnknown => "UnknownAliasError"
  | .aliasDepth => "AliasDepthExceededError"
  | .lintViolation => "LintViolation"
  | .stage => "StageFailure"
  | .launch => "CommandLaunchError"
  | .cancelled => "CommandCancelledError"

/-- Failures of the expansion of an alias, which nothing but that alias is affected by. -/
def Kind.isResolution : Kind → Bool
  | .aliasResolution | .aliasCycle | .aliasUnknown | .aliasDepth => true
  | _ => false

private def detail (failure : Failure) (name : String) : Option Value :=
  Record.get? failure.details name

private def detailText (failure : Failure) (name : String) : Except Value.Fault String :=
  ((failure.detail name).getD (.text "")).display

/-- The alias whose expansion failed, or nothing. -/
def alias_ (failure : Failure) : Value := (failure.detail "alias").getD .null

/-- Aliases of a cycle. -/
def path (failure : Failure) : Except Value.Fault (List Value) :=
  ((failure.detail "path").getD (.list [])).sequence

def name (failure : Failure) : Except Value.Fault String := failure.detailText "name"
def lint (failure : Failure) : Except Value.Fault String := failure.detailText "lint"
def severity (failure : Failure) : Except Value.Fault String := failure.detailText "severity"
def stageName (failure : Failure) : Except Value.Fault String := failure.detailText "stage"

def fatal (failure : Failure) : Except Value.Fault Bool :=
  failure.severity.map (· == Severity.deny.name)

def exitInfo (failure : Failure) : Except Value.Fault Record :=
  (((failure.detail "exit_info").getD (.map [])).orElse (.map [])).table

end Failure

def ResolutionError.kind : ResolutionError → Failure.Kind
  | .unknown .. => .aliasUnknown
  | .cyclic .. => .aliasCycle
  | .tooDeep .. => .aliasDepth

def ResolutionError.toFailure (error : ResolutionError) : Failure :=
  ⟨error.kind, error.message, error.details, some error.hint⟩

def Violation.toFailure (violation : Violation) : Failure :=
  ⟨.lintViolation, violation.message,
    .ofFields [("lint", .text violation.lint), ("severity", .text violation.severity.name),
      ("note", .text violation.note)],
    none⟩

/-- The recorded form of a failure. -/
structure Payload where
  code : String
  message : String
  details : Record
  hint : Option String
deriving Inhabited

namespace Payload

def toRecord (payload : Payload) : Record :=
  .ofFields [("type", .text payload.code), ("message", .text payload.message),
    ("details", .map payload.details), ("hint", .ofText? payload.hint)]

def configurationHint : String :=
  "Corrija a política (defaults/local) indicada antes de reexecutar; " ++
    "nenhuma etapa foi executada."

def configuration (message : String) (kind : Option String)
    (hint : Option String := some configurationHint) : Payload :=
  ⟨"CONFIGURATION_ERROR", message, .ofFields [("exc_type", .ofText? kind)], hint⟩

def exitHint : String :=
  "Reproduza o comando do estágio localmente; a saída capturada está no log do estágio."

def stageExit (stage : String) (arguments : List String) (code : Int)
    (hint : Option String := some exitHint) : Except Value.Fault Payload := do
  let shown ← Number.display code
  .ok ⟨"STAGE_EXIT_FAILURE", "Estágio '" ++ stage ++ "' terminou com código " ++ shown,
    .ofFields [("stage", .text stage), ("argv", .ofTexts arguments), ("returncode", .int code)],
    hint⟩

def launchHint : String := "Verifique se a toolchain está instalada e presente no PATH."

def stageLaunch (stage : String) (arguments : List String) (reason : String)
    (hint : Option String := some launchHint) : Payload :=
  ⟨"STAGE_LAUNCH_FAILURE", "Estágio '" ++ stage ++ "' não pôde ser iniciado",
    .ofFields [("stage", .text stage), ("argv", .ofTexts arguments), ("reason", .text reason)],
    hint⟩

def cancelHint : String :=
  "O pipeline foi interrompido pelo operador; reexecute o pipeline completo."

def stageCancelled (stage : String) (arguments : List String)
    (hint : Option String := some cancelHint) : Payload :=
  ⟨"STAGE_CANCELLED", "Estágio '" ++ stage ++ "' cancelado",
    .ofFields [("stage", .text stage), ("argv", .ofTexts arguments),
      ("reason", .text "cancelled")],
    hint⟩

def lintHint : String :=
  "Corrija os diagnósticos com severidade deny ou ajuste explicitamente a política de lints."

def stageLintDenied (stage : String) (lints : List String)
    (hint : Option String := some lintHint) : Payload :=
  ⟨"STAGE_LINT_DENIED", "Estágio '" ++ stage ++ "' violou lints com severidade deny",
    .ofFields [("stage", .text stage), ("lints", .ofTexts lints)], hint⟩

end Payload
end BuildRules
