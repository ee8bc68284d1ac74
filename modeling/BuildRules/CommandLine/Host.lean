import BuildRules.CommandLine.Session
import BuildRules.Yaml.Document

/-! The two sides of a call that runs elsewhere. A host names the workspace, starts the
commands that it is asked to start, and says what came of each. A call has no memory between
its turns: it is made again with every answer so far, which leads it to the same place. -/
namespace BuildRules.CommandLine

/-- What came of a command, and when. -/
structure Answer where
  response : Response
  time : Timestamp

structure Host where
  files : FileTree
  vars : Entries String String
  started : Timestamp
  runId : String
  /-- To the commands so far, in order. -/
  answers : List Answer

/-- What a call asks of its host next. -/
inductive Turn where
  | start (command : Command) (capture : Bool)
  | finish (ending : Ending) (trace : Trace)

namespace Host

/-- Stands in for the answer to a command that is not yet started. The turn ends there, so
nothing that follows from it is seen. -/
private def unanswered : Response := .error (.failure ⟨.cancelled, "", [], none⟩)

/-- The time after so many commands. -/
def timeAfter (host : Host) : Nat → Timestamp
  | 0 => host.started
  | count + 1 => ((host.answers[count]?).map Answer.time).getD host.started

/-- A run reads its clock once before a command and once after it. -/
def world (host : Host) : World where
  executor number _ := ((host.answers[number]?).map Answer.response).getD unanswered
  clock reading := host.timeAfter ((reading + 1) / 2)
  logTime := host.timeAfter

/-- The class of an error is all that a call is told of it. -/
def readYaml (text : String) : Except String Value :=
  (Yaml.read text).mapError fun
    | .escapeBeyondUnicode | .numberDigits => "ValueError"
    | _ => "YAMLError"

def setting (host : Host) : Setting :=
  ⟨host.files, host.vars, host.world, host.started, host.runId, readYaml⟩

def turn (host : Host) (line : List String) : Turn :=
  let (ending, trace) := call host.setting line
  match trace.commands[host.answers.length]? with
  | some command => .start command (trace.captures.getLast?.getD true)
  | none => .finish ending trace

def hear (host : Host) (answer : Answer) : Host :=
  { host with answers := host.answers ++ [answer] }

private def member? (name : String) : Json → Option Json
  | .object members => members.lookup name
  | _ => none

private def text? : Json → Option String
  | .text text => some text
  | _ => none

private def textAt? (json : Json) (name : String) : Option String :=
  (member? name json).bind text?

private def timeAt? (json : Json) : Option Timestamp :=
  (textAt? json "time").bind Timestamp.ofIso?

/-- A pair of a path and a text is a file; with `null` for the text, a directory. -/
private def plant (files : FileTree) : Json → FileTree
  | .array [.text path, .text text] =>
    let parent := (files.makeDirectory (Path.ofText path).parent).toOption.getD files
    (parent.write (Path.ofText path) text).toOption.getD parent
  | .array [.text path, .null] => (files.makeDirectory (Path.ofText path)).toOption.getD files
  | _ => files

private def filesOf (json : Json) : FileTree :=
  let current := Path.ofText ((textAt? json "directory").getD "/")
  let bare := FileTree.empty current
  let bare := (bare.makeDirectory current).toOption.getD bare
  match member? "files" json with
  | some (.array files) => files.foldl plant bare
  | _ => bare

private def variablesOf (json : Json) : Entries String String :=
  match member? "variables" json with
  | some (.object members) => members.filterMap fun entry => (text? entry.2).map (entry.1, ·)
  | _ => []

/-- The workspace of a call: its `directory`, `files` and `variables`, the `time`, and the
name of the `run`. -/
def ofText? (text : String) : Option Host := do
  let json ← (Json.parse text).toOption
  let run ← textAt? json "run"
  return ⟨filesOf json, variablesOf json, ← timeAt? json, run, []⟩

end Host

/-- An answer has the `time`, and either the `code`, `output` and `diagnostics` of the
command, or the reason why it was not started (`failed`), or nothing more if it was
cancelled. -/
def Answer.ofText? (command : Command) (text : String) : Option Answer := do
  let json ← (Json.parse text).toOption
  let time ← Host.timeAt? json
  match Host.member? "code" json, Host.textAt? json "failed" with
  | some (.int code _), _ =>
    let result : CommandResult :=
      ⟨code, (Host.textAt? json "output").getD "", (Host.textAt? json "diagnostics").getD ""⟩
    return ⟨.ok result, time⟩
  | _, some reason => return ⟨.error (.failure (command.launchFailure reason)), time⟩
  | _, none => return ⟨.error (.failure command.cancelFailure), time⟩

/-- The exit code of a call; one that nothing caught has that of any program that fails. -/
def Ending.code : Ending → Int
  | .stopped stop => stop.code
  | .finished code => code
  | .uncaught _ => 1

namespace Turn

private def ofCommand (command : Command) (capture : Bool) : Json :=
  .object [("argv", .array (command.arguments.map .text)),
    ("env", .object (command.vars.map fun entry => (entry.1, .text entry.2))),
    ("cwd", (command.directory.map Json.text).getD .null), ("capture", .bool capture)]

private def codeOf (code : Int) : Json :=
  if short : Number.isShort code = true then .int code short else .null

/-- What a call has left: its texts, and the files as they are now. -/
private def ofTrace (ending : Ending) (trace : Trace) : Json :=
  let files := trace.files.entries.filterMap fun entry =>
    match entry.2 with
    | .file text => some (Json.array [.text ("/" ++ "/".intercalate entry.1), .text text])
    | .directory => none
  .object [("code", codeOf ending.code), ("output", .text trace.output),
    ("diagnostics", .text trace.diagnostics), ("files", .array files)]

def render : Turn → String
  | .start command capture => Json.render .compact (.object [("start", ofCommand command capture)])
  | .finish ending trace => Json.render .compact (.object [("finish", ofTrace ending trace)])

end Turn

end BuildRules.CommandLine
