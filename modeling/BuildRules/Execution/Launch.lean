import BuildRules.Command
import BuildRules.Shell.Machine

/-! Processes of a workspace: which program a command starts, or why it starts none, and
what comes of it. Files of the workspace cannot be executed; the system has a shell and a
few utilities. -/
namespace BuildRules.Execution

inductive LaunchReason where
  | missing
  | denied
  | notDirectory
deriving DecidableEq

namespace LaunchReason

def number : LaunchReason → Nat
  | .missing => 2
  | .denied => 13
  | .notDirectory => 20

def text : LaunchReason → String
  | .missing => "No such file or directory"
  | .denied => "Permission denied"
  | .notDirectory => "Not a directory"

end LaunchReason

/-- A launch that failed, and the name that it is blamed on. -/
structure LaunchFault where
  reason : LaunchReason
  subject : String

def LaunchFault.message (fault : LaunchFault) : String :=
  "[Errno " ++ toString fault.reason.number ++ "] " ++ fault.reason.text ++ ": " ++
    Text.quoted fault.subject

/-- Directories of the system with programs in them. -/
def programDirectories : List (List String) := [["bin"], ["usr", "bin"]]

/-- Other places of the system, none of them a program. -/
def otherPlaces : List (List String) :=
  [["usr"], ["sbin"], ["usr", "sbin"], ["usr", "local"], ["usr", "local", "bin"],
    ["usr", "local", "sbin"], ["tmp"], ["etc"], ["dev"], ["dev", "null"]]

def programs : List String :=
  ["sh", "true", "false", "echo", "printf", "cat", "pwd", "sleep", "seq", "ls", "test", "[", "kill"]

def standardSearch : String :=
  "/usr/local/sbin:/usr/local/bin:/usr/sbin:/usr/bin:/sbin:/bin"

/-- What executing a path comes to: the name of a program, or a reason why not. -/
def execute (files : FileTree) (name : String) : Except LaunchReason String :=
  let path := Path.ofText name
  let parts := (files.current.within path).parts
  let settled := settle [] parts
  if programDirectories.contains settled.dropLast && programs.contains (settled.getLastD "") then
    .ok (settled.getLastD "")
  else if (programDirectories ++ otherPlaces).contains settled then .error .denied
  else if files.find? path == some .directory then .error .denied
  else if (files.find? path).isSome then
    .error (if name.toList.getLast? == some '/' then .notDirectory else .denied)
  else if crossesFile files [] parts then .error .notDirectory
  else .error .missing
where
  /-- The place of a path whose components are all there. -/
  settle (place : List String) : List String → List String
    | [] => place
    | part :: rest => settle (if part == ".." then place.dropLast else place ++ [part]) rest
  /-- Whether a path goes on behind a file. -/
  crossesFile (files : FileTree) (place : List String) : List String → Bool
    | [] => false
    | part :: rest =>
      match files.at? place with
      | some (.file _) => true
      | some .directory =>
        crossesFile files (if part == ".." then place.dropLast else place ++ [part]) rest
      | none => false

/-- The first path that can be executed. Otherwise a denial counts for more than the reason
of the last path. -/
private def firstOf (files : FileTree) (last : LaunchReason) (denied : Bool) :
    List String → Except LaunchReason String
  | [] => .error (if denied then .denied else last)
  | path :: rest =>
    match execute files path with
    | .ok program => .ok program
    | .error reason => firstOf files reason (denied || reason == .denied) rest

/-- Paths that a name may stand for: itself if it has a slash, else one for each directory
of the search list. -/
private def candidates (search name : String) : List String :=
  if name.toList.contains '/' then [name]
  else (search.splitOn ":").map fun directory =>
    if directory == "" then name else directory ++ "/" ++ name

private def stored? (vars : Entries String String) (name : String) : Option String :=
  Entries.find? vars name

/-- The place that a command is to run in. -/
private def enter (files : FileTree) (directory : Option String) :
    Except LaunchFault FileTree :=
  match directory with
  | none => .ok files
  | some name =>
    let path := Path.ofText name
    match files.place? path with
    | some place =>
      match files.at? place with
      | some .directory => .ok { files with current := ⟨"/", place⟩ }
      | some (.file _) => .error ⟨.notDirectory, path.display⟩
      | none => .error ⟨.missing, path.display⟩
    | none =>
      let crosses := execute.crossesFile files [] (files.current.within path).parts
      .error ⟨if crosses then .notDirectory else .missing, path.display⟩

def locate (files : FileTree) (vars : Entries String String) (name : String) :
    Except LaunchFault String :=
  let search := (stored? vars "PATH").getD standardSearch
  match firstOf files .missing false (candidates search name) with
  | .ok program => .ok program
  | .error reason => .error ⟨reason, name⟩

private def machineOf (files : FileTree) (vars : Entries String String) (name : String) :
    Shell.Machine :=
  let bytes := vars.map fun entry => (Shell.bytesOf entry.1, Shell.bytesOf entry.2)
  let standard : List (Shell.Bytes × Shell.Bytes) :=
    [(Shell.bytesOf "PATH", Shell.bytesOf standardSearch),
      (Shell.bytesOf "PWD", Shell.bytesOf files.current.display)]
  ⟨bytes ++ standard, Shell.bytesOf name, [], 0, files, [], .output, .diagnostics, #[], #[], #[]⟩

/-- Run the script that a shell is called with. The words after it are its parameters. -/
private def runShell (machine : Shell.Machine) (words : List String) :
    Shell.Ended × Shell.Machine :=
  let refuse (message : String) :=
    (.exited 2, { machine with
      diagnostics := (machine.name ++ Shell.bytesOf (": 0: " ++ message ++ "\n")).toArray })
  match words with
  | ["-c"] => refuse "-c requires an argument"
  | "-c" :: text :: rest =>
    let machine := { machine with
      name := (rest.head?.map Shell.bytesOf).getD machine.name
      parameters := rest.tail.map Shell.bytesOf }
    machine.runText (Shell.bytesOf text)
  | [] => (.exited 0, machine)
  | name :: rest =>
    match machine.files.read (.ofText name) with
    | .ok text =>
      let machine := { machine with
        name := Shell.bytesOf name, parameters := rest.map Shell.bytesOf }
      machine.runText (Shell.bytesOf text)
    | .error _ => refuse ("cannot open " ++ name ++ ": No such file")

/-- A code below zero names the signal that killed the process. -/
private def codeOf : Shell.Ended → Int
  | .exited status => (status % 256 : Nat)
  | .killed signal => -(signal : Int)

private def readable (bytes : Array Char) : String :=
  String.ofList (Text.unifyLineEnds (Shell.textOf bytes.toList).toList)

/-- Run a command in a workspace. Output that is not captured is not part of the result. -/
def run (files : FileTree) (capture : Bool) (command : Command) :
    Except LaunchFault CommandResult := do
  let files ← enter files command.directory
  let program ← locate files command.vars (command.program)
  let machine := machineOf files command.vars (command.program)
  let words := command.arguments.tail
  let (ended, machine) :=
    if program == "sh" then runShell machine words
    else (machine.runUtility? program (words.map Shell.bytesOf)).getD (.exited 0, machine)
  return ⟨codeOf ended, if capture then readable machine.output else "",
    if capture then readable machine.diagnostics else ""⟩

/-- A text with a zero byte is no argument of a process. -/
private def hasZero (command : Command) : Bool :=
  let texts := command.arguments ++ command.directory.toList ++
    command.vars.flatMap fun entry => [entry.1, entry.2]
  texts.any fun text => text.toList.contains '\x00'

/-- The executor that starts processes. -/
def respond (files : FileTree) (capture : Bool) (command : Command) : Response :=
  if hasZero command then .error (.foreign "ValueError" (.ok "embedded null byte"))
  else
    match run files capture command with
    | .ok result => .ok result
    | .error fault => .error (.failure (command.launchFailure fault.message))

end BuildRules.Execution
