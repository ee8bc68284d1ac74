import BuildRules.Shell.Format
import BuildRules.Text.Utf8
import BuildRules.Workspace.FileTree

/-! Scripts at work: variables, channels and files change as they run. What takes more
steps than it is given is killed. -/
namespace BuildRules.Shell

def bytesOf (text : String) : Bytes := text.toUTF8.toList.map fun byte => Char.ofNat byte.toNat

def textOf (bytes : Bytes) : String :=
  String.ofList (Text.decode (bytes.map fun c => UInt8.ofNat c.toNat))

/-- Where the bytes of a channel go. -/
inductive Sink where
  | output
  | diagnostics
  /-- To the script or the word that waits for them. -/
  | held
  | file (path : Path)
  | nowhere
deriving DecidableEq

structure Machine where
  vars : List (Bytes × Bytes)
  /-- The name that messages begin with. -/
  name : Bytes
  parameters : List Bytes
  status : Nat
  files : FileTree
  input : Bytes
  outputSink : Sink
  diagnosticsSink : Sink
  output : Array Char
  diagnostics : Array Char
  held : Array Char

/-- What ends a script before its last command. -/
inductive Leave where
  | exit (status : Nat)
  | killed (signal : Nat)

abbrev Running := ExceptT Leave (StateM Machine)

namespace Machine

def signalKill : Nat := 9

private def stored? (machine : Machine) (name : Bytes) : Option Bytes :=
  machine.vars.lookup name

private def withVariable (machine : Machine) (name value : Bytes) : Machine :=
  { machine with vars := (name, value) :: machine.vars.filter (·.1 != name) }

private def send (machine : Machine) (sink : Sink) (bytes : Bytes) : Machine :=
  match sink with
  | .output => { machine with output := machine.output ++ bytes.toArray }
  | .diagnostics => { machine with diagnostics := machine.diagnostics ++ bytes.toArray }
  | .held => { machine with held := machine.held ++ bytes.toArray }
  | .nowhere => machine
  | .file path =>
    let before := (machine.files.read path).toOption.getD ""
    { machine with
      files := (machine.files.write path (before ++ textOf bytes)).toOption.getD machine.files }

/-- The number of a shell's process is not known; any one that is no other's will do. -/
private def processNumber : Bytes := ['1', '0', '0', '0']

private def parameter? (machine : Machine) (name : Bytes) : Option Bytes :=
  match name with
  | ['?'] => some (Nat.toDigits 10 machine.status)
  | ['#'] => some (Nat.toDigits 10 machine.parameters.length)
  | ['$'] => some processNumber
  | ['@'] | ['*'] => some ([' '].intercalate machine.parameters)
  | ['0'] => some machine.name
  | [] => none
  | c :: _ =>
    if c.isDigit then
      match Json.decimalValue name with
      | 0 => some machine.name
      | place + 1 => machine.parameters[place]?
    else machine.stored? name

end Machine

private def put (bytes : Bytes) : Running Unit :=
  modify fun machine => machine.send machine.outputSink bytes

private def setStatus (status : Nat) : Running Unit :=
  modify fun machine => { machine with status }

/-- A message of the shell or of a command, and a status. -/
private def complain (message : Bytes) (status : Nat) : Running Unit := do
  modify fun machine => machine.send machine.diagnosticsSink (message ++ ['\n'])
  setStatus status

private def complainShell (message : Bytes) (status : Nat) : Running Unit := do
  complain ((← get).name ++ bytesOf ": 1: " ++ message) status

private def ofBool (value : Bool) : Nat := if value then 0 else 1

private def pathOf (bytes : Bytes) : Path := Path.ofText (textOf bytes)

/-- Fields under construction: those complete, last first, and one begun. -/
private structure Fields where
  complete : List Bytes
  begun : Option Bytes

namespace Fields

private def append (fields : Fields) (text : Bytes) : Fields :=
  { fields with begun := some (fields.begun.getD [] ++ text) }

private def close (fields : Fields) : Fields :=
  match fields.begun with
  | some text => ⟨text :: fields.complete, none⟩
  | none => fields

private def isSeparator (c : Char) : Bool := c == ' ' || c == '\t' || c == '\n'

/-- Text that is split at blanks. -/
private def split (fields : Fields) : Bytes → Fields
  | [] => fields
  | c :: rest => split (if isSeparator c then fields.close else fields.append [c]) rest

/-- Every item a field of its own; the first and the last join what stands beside them. -/
private def each (fields : Fields) : List Bytes → Fields
  | [] => fields
  | [item] => fields.append item
  | item :: rest => each (fields.append item).close rest

private def add (fields : Fields) (text : Bytes) (quoted : Bool) : Fields :=
  if quoted then fields.append text else fields.split text

private def toList (fields : Fields) : List Bytes := fields.close.complete.reverse

end Fields

/-- A condition of the words of a test. -/
private def condition : Nat → FileTree → List Bytes → Option Bool
  | 0, _, _ => none
  | fuel + 1, files, words =>
    let compared (left right : Bytes) (test : Int → Int → Bool) : Option Bool := do
      return test (← Arithmetic.numberOf? left) (← Arithmetic.numberOf? right)
    match words with
    | [] => some false
    | [word] => some !word.isEmpty
    | [first, second] =>
      if first == ['!'] then (condition fuel files [second]).map (!·)
      else
        match String.ofList first with
        | "-n" => some !second.isEmpty
        | "-z" => some second.isEmpty
        | "-e" => some (files.find? (pathOf second)).isSome
        | "-d" => some (files.find? (pathOf second) == some .directory)
        | "-f" =>
          let found := files.find? (pathOf second)
          some (found.isSome && found != some .directory)
        | "-s" => some (((files.read (pathOf second)).toOption.getD "") != "")
        | "-r" => some (files.find? (pathOf second)).isSome
        | "-x" => some (files.find? (pathOf second) == some .directory)
        | _ => none
    | [left, operator, right] =>
      match String.ofList operator with
      | "=" => some (left == right)
      | "!=" => some (left != right)
      | "-eq" => compared left right (· == ·)
      | "-ne" => compared left right (· != ·)
      | "-lt" => compared left right fun left right => decide (left < right)
      | "-le" => compared left right fun left right => decide (left ≤ right)
      | "-gt" => compared left right fun left right => decide (right < left)
      | "-ge" => compared left right fun left right => decide (right ≤ left)
      | _ => if left == ['!'] then (condition fuel files [operator, right]).map (!·) else none
    | first :: rest => if first == ['!'] then (condition fuel files rest).map (!·) else none

private def test (words : List Bytes) : Running Unit := do
  match condition (words.length + 1) (← get).files words with
  | some value => setStatus (ofBool value)
  | none => complainShell (bytesOf "[: unexpected operator") 2

private def echo (words : List Bytes) : Running Unit := do
  let (words, ends) := match words with
    | ['-', 'n'] :: rest => (rest, false)
    | _ => (words, true)
  let text := [' '].intercalate words
  let (written, stops) := Format.unescaped (text.length + 1) text
  put (if ends && !stops then written ++ ['\n'] else written)
  setStatus 0

/-- The utility outside of the shell knows no escapes. -/
private def plainEcho (words : List Bytes) : Running Unit := do
  match words with
  | ['-', 'n'] :: rest => put ([' '].intercalate rest)
  | _ => put ([' '].intercalate words ++ ['\n'])
  setStatus 0

private def printFormat (words : List Bytes) : Running Unit := do
  match words with
  | [] => complainShell (bytesOf "printf: usage: printf format [arg ...]") 2
  | format :: arguments =>
    let (text, fits) := Format.write format arguments
    put text
    setStatus (ofBool fits)

private def cat : List Bytes → Running Unit
  | [] => return
  | name :: rest => do
    let machine ← get
    if name == ['-'] then put machine.input
    else
      match machine.files.read (pathOf name) with
      | .ok text => put (bytesOf text)
      | .error fault =>
        let reason := match fault with
          | .isDirectory => "Is a directory"
          | .notDirectory => "Not a directory"
          | _ => "No such file or directory"
        complain (bytesOf "cat: " ++ name ++ bytesOf (": " ++ reason)) 1
    let status := (← get).status
    cat rest
    if status != 0 then setStatus status

private def changeDirectory (words : List Bytes) : Running Unit := do
  let machine ← get
  let target := match words with
    | word :: _ => word
    | [] => (machine.stored? ("HOME".toList)).getD []
  match machine.files.place? (pathOf target) with
  | some place =>
    if machine.files.at? place == some .directory then
      set { machine with files := { machine.files with current := ⟨"/", place⟩ }, status := 0 }
    else complainShell (bytesOf "cd: can't cd to " ++ target) 2
  | none => complainShell (bytesOf "cd: can't cd to " ++ target) 2

private def exitStatus? (word : Bytes) : Option Nat :=
  if !word.isEmpty && word.all Char.isDigit then some (Json.decimalValue word) else none

private def exit (words : List Bytes) : Running Unit := do
  match words with
  | [] => throw (.exit (← get).status)
  | word :: _ =>
    match exitStatus? word with
    | some status => throw (.exit (status % 256))
    | none =>
      complainShell (bytesOf "exit: Illegal number: " ++ word) 2
      throw (.exit 2)

private def signals : List (String × Nat) :=
  [("HUP", 1), ("INT", 2), ("QUIT", 3), ("ABRT", 6), ("KILL", 9), ("USR1", 10), ("SEGV", 11),
    ("USR2", 12), ("PIPE", 13), ("ALRM", 14), ("TERM", 15)]

private def signal? (name : Bytes) : Option Nat :=
  exitStatus? name <|> signals.lookup (String.ofList name)

/-- A signal sent to the shell itself. No other process is there to get one. -/
private def kill (words : List Bytes) : Running Unit := do
  let (name, targets) := match words with
    | ['-', 's'] :: name :: rest => (name, rest)
    | ('-' :: name) :: rest => (name, rest)
    | _ => ("TERM".toList, words)
  match signal? name with
  | none => complainShell (bytesOf "kill: Illegal option -" ++ name) 2
  | some signal =>
    if targets.contains Machine.processNumber then
      if signal = 0 then setStatus 0 else throw (.killed signal)
    else complainShell (bytesOf "kill: No such process") 1

private def assign (word : Bytes) : Running Unit := do
  let name := word.takeWhile (· != '=')
  match word.drop name.length with
  | _ :: value => modify fun machine => machine.withVariable name value
  | [] => return

/-- Words after two hyphens become the parameters; options change nothing here. -/
private def setParameters (words : List Bytes) : Running Unit :=
  modify fun machine =>
    match words.dropWhile (· != ['-', '-']) with
    | _ :: parameters => { machine with parameters, status := 0 }
    | [] => { machine with status := 0 }

private def unset (names : List Bytes) : Running Unit :=
  modify fun machine =>
    { machine with
      vars := machine.vars.filter fun entry => !names.contains entry.1, status := 0 }

private def shift (words : List Bytes) : Running Unit := do
  let machine ← get
  let count := (words.head?.bind exitStatus?).getD 1
  if machine.parameters.length < count then
    complainShell (bytesOf "shift: can't shift that many") 2
    throw (.exit 2)
  else set { machine with parameters := machine.parameters.drop count, status := 0 }

/-- The names in a directory, those with a dot in front left out. -/
private def list (words : List Bytes) : Running Unit := do
  let machine ← get
  let path := pathOf (words.headD ['.'])
  if machine.files.find? path == some .directory then
    for name in machine.files.names path do
      if !(name.toList.head? == some '.') then put (bytesOf name ++ ['\n'])
    setStatus 0
  else if (machine.files.find? path).isSome then
    put (words.headD [] ++ ['\n'])
    setStatus 0
  else
    complain (bytesOf "ls: cannot access '" ++ words.headD [] ++
      bytesOf "': No such file or directory") 2

/-- Integers from the first to the last, one on each line. -/
private def countUp (words : List Bytes) : Running Unit := do
  let bounds : Option (Int × Int) :=
    match words.mapM Arithmetic.numberOf? with
    | some [last] => some (1, last)
    | some [first, last] => some (first, last)
    | _ => none
  match bounds with
  | none => complain (bytesOf "seq: invalid argument") 1
  | some (first, last) =>
    for offset in List.range (last - first + 1).toNat do
      put ((toString (first + offset)).toList ++ ['\n'])
    setStatus 0

/-- Commands that need no other process, and the few utilities that are there. -/
private def builtin? (name : String) (words : List Bytes) : Option (Running Unit) :=
  match name with
  | ":" | "true" | "sleep" => some (setStatus 0)
  | "false" => some (setStatus 1)
  | "echo" => some (echo words)
  | "printf" => some (printFormat words)
  | "exit" => some (exit words)
  | "test" => some (test words)
  | "[" =>
    some (if words.getLast? == some [']'] then test words.dropLast
      else complainShell (bytesOf "[: missing ]") 2)
  | "cat" => some do
      setStatus 0
      cat (if words.isEmpty then [['-']] else words)
  | "pwd" => some do
      put (bytesOf ((← get).files.current.display ++ "\n"))
      setStatus 0
  | "cd" => some (changeDirectory words)
  | "kill" => some (kill words)
  | "export" => some do
      for word in words do assign word
      setStatus 0
  | "unset" => some (unset words)
  | "shift" => some (shift words)
  | "set" => some (setParameters words)
  | "seq" => some (countUp words)
  | "ls" => some (list words)
  | _ => none

/-- Run with other channels, which lead where they did afterwards. -/
private def restoring (action : Running Unit) : Running Unit := do
  let before ← get
  let restore : Running Unit := modify fun machine =>
    { machine with
      outputSink := before.outputSink, diagnosticsSink := before.diagnosticsSink
      input := before.input }
  tryCatch action fun leave => do
    restore
    throw leave
  restore

/-- Run as a process of its own: only what it wrote is left. -/
private def apart (action : Running Unit) : Running Unit := do
  let before ← get
  tryCatch action fun leave =>
    match leave with
    | .exit status => setStatus status
    | .killed signal => setStatus (128 + signal)
  modify fun machine =>
    { machine with
      vars := before.vars, parameters := before.parameters
      files := { machine.files with current := before.files.current } }

private def sinkOf (machine : Machine) (channel : Nat) : Sink :=
  if channel = 1 then machine.outputSink
  else if channel = 2 then machine.diagnosticsSink
  else .nowhere

private def withSink (channel : Nat) (sink : Sink) : Running Unit :=
  modify fun machine =>
    if channel = 1 then { machine with outputSink := sink }
    else if channel = 2 then { machine with diagnosticsSink := sink }
    else machine

/-- Whether a file could be opened for writing. -/
private def openFile (channel : Nat) (name : Bytes) (append : Bool) : Running Bool := do
  let machine ← get
  if textOf name == "/dev/null" then
    withSink channel .nowhere
    return true
  let path := pathOf name
  let before := if append then (machine.files.read path).toOption.getD "" else ""
  match machine.files.write path before with
  | .ok files =>
    set { machine with files }
    withSink channel (.file path)
    return true
  | .error fault =>
    let reason := match fault with
      | .isDirectory => "Is a directory"
      | .notDirectory => "Not a directory"
      | _ => "Directory nonexistent"
    complainShell (bytesOf "cannot create " ++ name ++ bytesOf (": " ++ reason)) 2
    return false

private def openInput (name : Bytes) : Running Bool := do
  let machine ← get
  if textOf name == "/dev/null" then
    set { machine with input := [] }
    return true
  match machine.files.read (pathOf name) with
  | .ok text =>
    set { machine with input := bytesOf text }
    return true
  | .error _ =>
    complainShell (bytesOf "cannot open " ++ name ++ bytesOf ": No such file") 2
    return false

private def dropTrailingLines (bytes : Bytes) : Bytes :=
  (bytes.reverse.dropWhile (· == '\n')).reverse

private def joined (fields : List Bytes) : Bytes := [' '].intercalate fields

/-- The command that runs its words as a script of their own. -/
private def scriptOfWords (words : List Bytes) : Option (Bytes × Bytes × List Bytes) :=
  match words with
  | ['-', 'c'] :: text :: rest => some (text, rest.headD ("sh".toList), rest.tail)
  | _ => none

mutual

/-- The bytes that an action writes, kept from where its output would go. -/
private def outputOf : Nat → Script → Running Bytes
  | 0, _ => throw (.killed Machine.signalKill)
  | fuel + 1, script => do
    let before ← get
    set { before with outputSink := .held, held := #[] }
    apart (run fuel script)
    let written := (← get).held.toList
    modify fun machine =>
      { machine with outputSink := before.outputSink, held := before.held }
    return written

private def expandPiece : Nat → Fields → Piece → Running Fields
  | 0, _, _ => throw (.killed Machine.signalKill)
  | fuel + 1, fields, piece => do
    match piece with
    | .literal text _ => return fields.append text
    | .parameter name quoted =>
      let machine ← get
      if name == ['@'] && quoted then return fields.each machine.parameters
      else return fields.add ((machine.parameter? name).getD []) quoted
    | .fallback name orEmpty other quoted =>
      match (← get).parameter? name with
      | some value =>
        if orEmpty && value.isEmpty then expand fuel fields other
        else return fields.add value quoted
      | none => expand fuel fields other
    | .arithmetic text quoted =>
      let machine ← get
      match Arithmetic.eval? (fun name => (machine.parameter? name).getD []) text with
      | some value => return fields.add (toString value).toList quoted
      | none =>
        complainShell (bytesOf "arithmetic expression: expecting primary: \"" ++ text ++ ['\x22'])
          2
        throw (.exit 2)
    | .output script quoted =>
      return fields.add (dropTrailingLines (← outputOf fuel script)) quoted

private def expand : Nat → Fields → List Piece → Running Fields
  | 0, _, _ => throw (.killed Machine.signalKill)
  | _ + 1, fields, [] => return fields
  | fuel + 1, fields, piece :: rest => do expand fuel (← expandPiece fuel fields piece) rest

private def expandWords : Nat → List (List Piece) → Running (List Bytes)
  | 0, _ => throw (.killed Machine.signalKill)
  | _ + 1, [] => return []
  | fuel + 1, word :: rest => do
    let fields ← expand fuel ⟨[], none⟩ word
    return fields.toList ++ (← expandWords fuel rest)

/-- Whether all redirections could be made. -/
private def redirect : Nat → List Redirection → Running Bool
  | 0, _ => throw (.killed Machine.signalKill)
  | _ + 1, [] => return true
  | fuel + 1, redirection :: rest => do
    let made ← match redirection with
      | .copy channel source => do
        withSink channel (sinkOf (← get) source)
        pure true
      | .write channel path append => do
        openFile channel (joined (← expandWords fuel [path.map .whole])) append
      | .read path => do openInput (joined (← expandWords fuel [path.map .whole]))
    if made then redirect fuel rest else return false

private def assignAll : Nat → List (Bytes × List Piece) → Running Unit
  | 0, _ => throw (.killed Machine.signalKill)
  | _ + 1, [] => return
  | fuel + 1, (name, pieces) :: rest => do
    let fields ← expand fuel ⟨[], none⟩ (pieces.map .whole)
    modify fun machine => machine.withVariable name (joined fields.toList)
    assignAll fuel rest

/-- A command by its words, the first of which is its name. -/
private def perform : Nat → List Bytes → Running Unit
  | 0, _ => throw (.killed Machine.signalKill)
  | _ + 1, [] => return
  | fuel + 1, name :: words => do
    match builtin? (textOf name) words with
    | some action => action
    | none =>
      match textOf name, words with
      | "exec", [] => setStatus 0
      | "exec", words => do
        perform fuel words
        throw (.exit (← get).status)
      | "sh", words =>
        match scriptOfWords words with
        | some (text, inner, parameters) =>
          apart do
            modify fun machine => { machine with name := inner, parameters }
            runText fuel text
          modify fun machine => { machine with name := machine.name }
        | none => complainShell (name ++ bytesOf ": not found") 127
      | text, _ =>
        if text.toList.contains '/' && ((← get).files.find? (Path.ofText text)).isSome then
          complainShell (name ++ bytesOf ": Permission denied") 126
        else complainShell (name ++ bytesOf ": not found") 127

private def forEach : Nat → Bytes → Script → List Bytes → Running Unit
  | 0, _, _, _ => throw (.killed Machine.signalKill)
  | _ + 1, _, _, [] => return
  | fuel + 1, name, body, item :: rest => do
    modify fun machine => machine.withVariable name item
    run fuel body
    forEach fuel name body rest

private def loop : Nat → Bool → Script → Script → Nat → Running Unit
  | 0, _, _, _, _ => throw (.killed Machine.signalKill)
  | fuel + 1, whileTrue, condition, body, last => do
    run fuel condition
    if decide ((← get).status = 0) == whileTrue then
      run fuel body
      loop fuel whileTrue condition body (← get).status
    else setStatus last

private def runSimple : Nat → List (Bytes × List Piece) → List (List Piece) → List Redirection →
    Running Unit
  | 0, _, _, _ => throw (.killed Machine.signalKill)
  | fuel + 1, assignments, words, redirections => do
    let words ← expandWords fuel words
    if words.isEmpty then
      setStatus 0
      assignAll fuel assignments
      restoring (discard (redirect fuel redirections))
    else
      let before := (← get).vars
      restoring do
        if ← redirect fuel redirections then
          assignAll fuel assignments
          perform fuel words
      if !assignments.isEmpty then
        modify fun machine => { machine with vars := before }

/-- Run a script; the status is that of its last command. -/
private def run : Nat → Script → Running Unit
  | 0, _ => throw (.killed Machine.signalKill)
  | fuel + 1, script => do
    match script with
    | .nothing => return
    | .simple assignments words redirections => runSimple fuel assignments words redirections
    | .sequence first second =>
      run fuel first
      run fuel second
    | .both first second =>
      run fuel first
      if (← get).status = 0 then run fuel second
    | .either first second =>
      run fuel first
      if (← get).status ≠ 0 then run fuel second
    | .negated inner =>
      run fuel inner
      setStatus (ofBool ((← get).status != 0))
    | .piped first second =>
      let before := (← get).input
      let written ← outputOf fuel first
      modify fun machine => { machine with input := written }
      apart (run fuel second)
      modify fun machine => { machine with input := before }
    | .loop whileTrue condition body => loop fuel whileTrue condition body 0
    | .branch condition whenTrue whenFalse =>
      run fuel condition
      if (← get).status = 0 then run fuel whenTrue
      else
        setStatus 0
        run fuel whenFalse
    | .forEach name words body =>
      let items ← match words with
        | some words => expandWords fuel words
        | none => pure (← get).parameters
      setStatus 0
      forEach fuel name body items
    | .grouped body redirections =>
      restoring do if ← redirect fuel redirections then run fuel body
    | .forked body redirections =>
      restoring do if ← redirect fuel redirections then apart (run fuel body)

/-- Run a text; what is no script has status two. -/
private def runText : Nat → Bytes → Running Unit
  | 0, _ => throw (.killed Machine.signalKill)
  | fuel + 1, text =>
    match Script.parse? text with
    | some script => run fuel script
    | none => complainShell (bytesOf "Syntax error") 2

end

/-- How a process ended. -/
inductive Ended where
  | exited (status : Nat)
  | killed (signal : Nat)
deriving DecidableEq

/-- Steps that lie inside each other at most. -/
def stepLimit : Nat := 1000000

/-- Run an action to its end. -/
private def finish (machine : Machine) (action : Running Unit) : Ended × Machine :=
  let (result, machine) := (ExceptT.run action).run machine
  match result with
  | .ok () => (.exited machine.status, machine)
  | .error (.exit status) => (.exited status, machine)
  | .error (.killed signal) => (.killed signal, machine)

def Machine.runText (machine : Machine) (text : Bytes) : Ended × Machine :=
  finish machine (Shell.runText stepLimit text)

/-- A command without a shell around it. None where no utility has its name. -/
def Machine.runUtility? (machine : Machine) (name : String) (words : List Bytes) :
    Option (Ended × Machine) :=
  let action := if name == "echo" then some (plainEcho words) else builtin? name words
  action.map (finish machine)

end BuildRules.Shell
