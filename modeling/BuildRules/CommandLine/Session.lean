import BuildRules.CargoConfig
import BuildRules.CommandLine.Usage
import BuildRules.Config.Load
import BuildRules.Report
import BuildRules.Run.Runner

namespace BuildRules.CommandLine

/-- What the program is called in. -/
structure Setting where
  files : FileTree
  vars : Entries String String
  world : World
  /-- When the run of a pipeline begins, and its name. -/
  started : Timestamp
  runId : String
  yaml : Config.YamlReader

/-- What a call has left behind so far. -/
structure Trace where
  output : String
  diagnostics : String
  commands : List Command
  /-- For each executor made, whether it keeps the output of its commands. -/
  captures : List Bool
  files : FileTree

def Trace.start (files : FileTree) : Trace := ⟨"", "", [], [], files⟩

/-- What ends a call early. Only some of these have an exit code. -/
inductive Interrupt where
  | load (error : Config.LoadError)
  | policy (error : PolicyError)
  | resolution (error : ResolutionError)
  | command (interruption : Interruption)
  | run (error : RunError)
  | manifest (fault : Manifest.Fault)
  | report (fault : Report.Fault)
  /-- A file cannot be written where it was asked for. -/
  | target (fault : FileTree.Fault)

/-- The state of a call outlasts what ends it. -/
abbrev Session := ExceptT Interrupt (StateM Trace)

namespace Session

def raise {ε α : Type} (wrap : ε → Interrupt) (result : Except ε α) : Session α :=
  liftM (result.mapError wrap)

def print (line : String) : Session Unit :=
  modify fun trace => { trace with output := trace.output ++ line ++ "\n" }

def warn (line : String) : Session Unit :=
  modify fun trace => { trace with diagnostics := trace.diagnostics ++ line ++ "\n" }

def makeExecutor (capture : Bool) : Session Unit :=
  modify fun trace => { trace with captures := trace.captures ++ [capture] }

def execute (setting : Setting) (command : Command) : Session Response := do
  let trace ← get
  set { trace with commands := trace.commands ++ [command] }
  return setting.world.executor trace.commands.length command

/-- The text of a hint that says something. -/
def warnHint (hint : Option String) : Session Unit :=
  match hint with
  | some text => if text == "" then return else warn ("hint: " ++ text)
  | none => return

def directory (setting : Setting) : String := setting.files.current.display

def loadPolicy (setting : Setting) (arguments : Arguments) (verify : Bool) :
    Session Policy := do
  let config ← raise .load (Config.load setting.yaml setting.files arguments.config arguments.local_)
  let check := if verify then Policy.VendorCheck.verified setting.files setting.files.current
    else .declared
  raise .policy (Policy.load check config)

def environmentOf (setting : Setting) (policy : Policy) : Environment :=
  policy.environment.overlay (.ofVariables setting.vars)

/-- Run one alias; the exit code is that of its command. -/
def run (setting : Setting) (arguments : Arguments) (name : String) (extra : List String) :
    Session Int := do
  let policy ← loadPolicy setting arguments true
  makeExecutor false
  let command ← raise .resolution
    (policy.aliasCommand (environmentOf setting policy) (some (directory setting)) name extra)
  let result ← raise .command (← execute setting command)
  return result.code

/-- Print the arguments of an alias as a JSON array. -/
def resolve (setting : Setting) (arguments : Arguments) (name : String) : Session Int := do
  let policy ← loadPolicy setting arguments true
  let tokens ← raise .resolution (policy.resolver.resolve name)
  print (Json.render .spaced (.array ((policy.toolchain :: tokens).map .text)))
  return 0

/-- Print the compiler flags, and the conflicts as warnings. -/
def lints (setting : Setting) (arguments : Arguments) : Session Int := do
  let policy ← loadPolicy setting arguments false
  for flag in policy.lints.flags do print flag
  for conflict in policy.lints.conflicts do warn ("warning: " ++ conflict.message)
  return 0

def cargoConfig (setting : Setting) (arguments : Arguments) : Session Int := do
  let policy ← loadPolicy setting arguments false
  let text := CargoConfig.render policy
  modify fun trace => { trace with output := trace.output ++ text }
  return 0

/-- One command of the check of the toolchain, and whether it went well. One that cannot
be started does not keep the others from being tried. -/
def probe (setting : Setting) (environment : Environment) (command : List String) :
    Session Bool := do
  let title := " ".intercalate command
  match ← execute setting ⟨command, environment.vars, none⟩ with
  | .ok result =>
    let shown := if result.output == "" then result.diagnostics else result.output
    print (title ++ ": " ++ Text.trim shown)
    return result.ok
  | .error (.failure failure) =>
    if failure.kind = .launch then
      warn (title ++ ": " ++ failure.message)
      return false
    else throw (.command (.failure failure))
  | .error interruption => throw (.command interruption)

def probeAll (setting : Setting) (environment : Environment) :
    List (List String) → Session Bool
  | [] => return true
  | command :: rest => do
    let well ← probe setting environment command
    let others ← probeAll setting environment rest
    return well && others

def doctor (setting : Setting) (arguments : Arguments) : Session Int := do
  let policy ← loadPolicy setting arguments false
  makeExecutor true
  let well ← probeAll setting (environmentOf setting policy) policy.doctor
  return if well then 0 else 1

def write (path text : String) : Session Unit := do
  let trace ← get
  let files ← raise .target (trace.files.write (Path.ofText path) text)
  set { trace with files }

def makeParent (path : String) : Session Unit := do
  let trace ← get
  let files ← raise .target (trace.files.makeDirectory (Path.ofText path).parent)
  set { trace with files }

/-- A path that was given and is not empty. -/
def given (path : Option String) : Option String := path.filter (· != "")

def saveManifest (manifest : Manifest) (path : String) : Session Unit := do
  makeParent path
  let text ← raise (fun fault => .manifest (.shape fault)) manifest.write
  write path text

def saveReport (manifest : Manifest) (path : String) : Session Unit := do
  makeParent path
  let text ← raise .report (Report.generate manifest.toValue)
  write path text

def padTo (width : Nat) (text : String) : String :=
  text ++ String.ofList (List.replicate (width - text.length) ' ')

/-- An event on one line, its further fields as JSON. -/
def eventLine (event : LogEvent) : Except Value.Fault String := do
  let suffix ← if event.extra.isEmpty then pure ""
    else (Json.write .spaced (.map event.extra)).map (" " ++ ·)
  return "[" ++ event.time.iso ++ "] " ++ padTo 7 event.level ++ " " ++ event.stage ++ ": " ++
    event.message ++ suffix

def warnEvents (log : RunLog) : Session Unit := do
  for event in log.events do
    warn (← raise (fun fault => .manifest (.shape fault)) (eventLine event))

/-- A line for each stage, and the outcome. -/
def printResult (result : RunResult) : Session Unit := do
  for stage in result.stages do print (stage.name ++ ": " ++ stage.status.name)
  print (← raise (fun fault => .run (.text fault)) result.outcome.display)

def triggerOf (options : CiOptions) : Option (String × String) := do
  return (← options.event, ← options.branch)

def warnFailure (stage : StageOutcome) : Session Unit := do
  let shown := stage.output ++ stage.diagnostics
  if shown != "" then warn shown
  match stage.error with
  | none => return
  | some payload =>
    warn ("error: " ++ payload.message)
    warnHint payload.hint

def exitCodeOf (result : RunResult) : Int :=
  match result.outcome with
  | .succeeded => 0
  | .failed _ info => match Record.get? info "reason" with
    | some (.text "cancelled") => 130
    | _ => 1

def newManifest (setting : Setting) (policy : Policy) (environment : Environment)
    (trigger : Option (String × String)) : Except Manifest.Fault Manifest :=
  let vars := environment.vars.map fun entry => (entry.1, Value.text entry.2)
  let triggerValue : Value := match trigger with
    | some (event, branch) => .ofFields [("event", .text event), ("branch", .text branch)]
    | none => .null
  Manifest.create (.text setting.runId) setting.started (.text programVersion)
    (.text policy.identity) (.ofFields vars) triggerValue

def runPipeline (setting : Setting) (policy : Policy) (environment : Environment)
    (manifest : Manifest) : Session (RunResult × RunLog × Manifest) := do
  let runner : Runner := ⟨policy, environment, some (directory setting), setting.world⟩
  let (result, progress) :=
    ((runner.run none).run).run (.start setting.runId (some manifest))
  modify fun trace => { trace with commands := trace.commands ++ progress.commands }
  return (← raise .run result, progress.log, progress.manifest.getD manifest)

/-- Run the pipeline. Its files are written whatever its outcome. -/
def pipeline (setting : Setting) (arguments : Arguments) (options : CiOptions) (policy : Policy)
    (trigger : Option (String × String)) : Session Int := do
  let environment := environmentOf setting policy
  let manifest ← raise .manifest (newManifest setting policy environment trigger)
  makeExecutor true
  let (result, log, manifest) ← runPipeline setting policy environment manifest
  printResult result
  (given options.manifest).forM (saveManifest manifest)
  (given options.report).forM (saveReport manifest)
  if arguments.verbose then warnEvents log
  result.failedStage?.forM warnFailure
  return exitCodeOf result

/-- Run the pipeline, unless event and branch are given and do not start it. -/
def ci (setting : Setting) (arguments : Arguments) (options : CiOptions) : Session Int := do
  let policy ← loadPolicy setting arguments true
  match triggerOf options with
  | some (event, branch) =>
    if policy.triggers.fires event branch then
      pipeline setting arguments options policy (some (event, branch))
    else
      print ("Pipeline not triggered for " ++ event ++ " on " ++ branch)
      return 0
  | none => pipeline setting arguments options policy none

def perform (setting : Setting) (arguments : Arguments) : Session Int :=
  match arguments.command with
  | .run name extra => run setting arguments name extra
  | .resolve name => resolve setting arguments name
  | .lints => lints setting arguments
  | .ci options => ci setting arguments options
  | .cargoConfig => cargoConfig setting arguments
  | .doctor => doctor setting arguments

def endConfiguration (message : String) : Session Int := do
  warn ("configuration error: " ++ message)
  warn ("hint: " ++ Payload.configurationHint)
  return 2

def endResolution (message : String) (hint : Option String) : Session Int := do
  warn ("alias error: " ++ message)
  warnHint hint
  return 2

def endCommand (failure : Failure) : Session Int :=
  if failure.kind.isResolution then endResolution failure.message failure.hint
  else if failure.kind = .launch then do
    warn ("error: " ++ failure.message)
    warnHint failure.hint
    return 127
  else if failure.kind = .cancelled then do
    warn ("cancelled: " ++ failure.message)
    return 130
  else throw (.command (.failure failure))

/-- The exit code of a call that ended early; what has none stays uncaught. -/
def close : Interrupt → Session Int
  | .load (.config error) | .policy (.config error) | .run (.plan (.config error)) =>
    endConfiguration error.said
  | .resolution error => endResolution error.message (some error.hint)
  | .command (.failure failure) => endCommand failure
  | interrupt => throw interrupt

end Session

/-- How a call ends. -/
inductive Ending where
  /-- The arguments name nothing to be done. -/
  | stopped (stop : Stop)
  | finished (code : Int)
  | uncaught (interrupt : Interrupt)

/-- A call of the program with a command line. -/
def call (setting : Setting) (line : List String) : Ending × Trace :=
  match Arguments.parse line with
  | .error stop =>
    (.stopped stop,
      { Trace.start setting.files with output := stop.output, diagnostics := stop.diagnostics })
  | .ok arguments =>
    let session := tryCatch (Session.perform setting arguments) Session.close
    match (ExceptT.run session).run (.start setting.files) with
    | (.ok code, trace) => (.finished code, trace)
    | (.error interrupt, trace) => (.uncaught interrupt, trace)

end BuildRules.CommandLine
