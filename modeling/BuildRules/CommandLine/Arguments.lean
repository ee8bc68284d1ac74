import BuildRules.CommandLine.Word
import BuildRules.Trigger

namespace BuildRules.CommandLine

structure CiOptions where
  event : Option String
  branch : Option String
  manifest : Option String
  report : Option String
deriving DecidableEq

inductive Subcommand where
  | run (alias_ : String) (arguments : List String)
  | resolve (alias_ : String)
  | lints
  | ci (options : CiOptions)
  | cargoConfig
  | doctor
deriving DecidableEq

structure Arguments where
  config : Option String
  local_ : Option String
  verbose : Bool
  command : Subcommand
deriving DecidableEq

/-- The parsers: that of all commands, and one for each. -/
inductive Topic where
  | program | run | resolve | lints | ci | cargoConfig | doctor
deriving DecidableEq

namespace Topic

/-- Commands in the order in which they are listed. -/
def commands : List (String × Topic) :=
  [("run", .run), ("resolve", .resolve), ("lints", .lints), ("ci", .ci),
    ("cargo-config", .cargoConfig), ("doctor", .doctor)]

def spellings : Topic → Spellings
  | .program => spellingsOf [.config, .local_, .verbose, .version]
  | .ci => spellingsOf [.event, .branch, .manifest, .report]
  | _ => spellingsOf []

end Topic

/-- Why the arguments name nothing to be done. -/
inductive Stop where
  | help (topic : Topic)
  | version
  | usage (topic : Topic) (error : UsageError)
deriving DecidableEq

/-- Plain words that a parser still waits for. -/
inductive Awaited where
  | nothing
  | alias_
  | aliasAndRest
  | command

/-- What a parser has read: values of options with the last first, the word it waited for
with everything after it, and words that nobody waited for. -/
structure Reading where
  values : List (Flag × String)
  taken : Option (String × List String)
  extras : List String

namespace Reading

def start : Reading := ⟨[], none, []⟩

private def addValue (reading : Reading) (flag : Flag) (value : String) : Reading :=
  { reading with values := (flag, value) :: reading.values }

private def addExtra (reading : Reading) (text : String) : Reading :=
  { reading with extras := reading.extras ++ [text] }

private def take (reading : Reading) (text : String) (rest : List Word) : Reading :=
  { reading with taken := some (text, rest.map Word.text) }

end Reading

private def choicesOf : Flag → Option (List String)
  | .event => some ["push", "pull_request"]
  | _ => none

private def checked (topic : Topic) (flag : Flag) (value : String) : Except Stop String :=
  match choicesOf flag with
  | some choices =>
    if choices.contains value then .ok value
    else .error (.usage topic (.choiceUnknown flag.name value choices))
  | none => .ok value

/-- An option without a value is used at once. -/
private def useSwitch (topic : Topic) (reading : Reading) (flag : Flag) : Except Stop Reading :=
  if flag = .help then .error (.help topic)
  else if flag = .version then .error .version
  else .ok (reading.addValue flag "")

/-- Letters after the one that asks for help. -/
private def helpLetters (topic : Topic) : List Char → Stop
  | 'h' :: rest => helpLetters topic rest
  | '=' :: rest => .usage topic (.valueUnwanted .help (String.ofList rest))
  | '-' :: rest => .usage topic (.valueUnwanted .help (String.ofList ('-' :: rest)))
  | _ => .help topic

private def useAttached (topic : Topic) (reading : Reading) (flag : Flag) (attached : Attached) :
    Except Stop Reading :=
  match attached with
  | .equals text =>
    let value := String.ofList text
    if flag.takesValue then (checked topic flag value).map (reading.addValue flag)
    else .error (.usage topic (.valueUnwanted flag value))
  | .letters text => .error (helpLetters topic text)

/-- The first word that is waited for ends the reading of a line, but for an alias alone. -/
def read (topic : Topic) (awaited : Awaited) (reading : Reading) :
    List Word → Except Stop Reading
  | [] => .ok reading
  | ⟨text, .unknown⟩ :: rest => read topic awaited (reading.addExtra text) rest
  | ⟨_, .option flag (some attached)⟩ :: rest => do
    read topic awaited (← useAttached topic reading flag attached) rest
  | ⟨_, .option flag none⟩ :: rest =>
    if flag.takesValue then
      match rest with
      | ⟨text, .plain⟩ :: more => do
        let value ← checked topic flag text
        read topic awaited (reading.addValue flag value) more
      | _ => .error (.usage topic (.valueMissing flag))
    else do read topic awaited (← useSwitch topic reading flag) rest
  | ⟨text, .plain⟩ :: rest =>
    match awaited, rest with
    | .nothing, rest => read topic .nothing (reading.addExtra text) rest
    | .alias_, ⟨_, .separator⟩ :: more => read topic .nothing (reading.take text []) more
    | .alias_, rest => read topic .nothing (reading.take text []) rest
    | .aliasAndRest, ⟨_, .separator⟩ :: more => .ok (reading.take text more)
    | .aliasAndRest, rest | .command, rest => .ok (reading.take text rest)
  | ⟨text, .separator⟩ :: rest =>
    match awaited, rest with
    | .alias_, ⟨name, _⟩ :: more => read topic .nothing (reading.take name []) more
    | .aliasAndRest, ⟨name, _⟩ :: more => .ok (reading.take name more)
    | .command, word :: more => .ok (reading.take text (word :: more))
    | awaited, rest => read topic awaited (reading.addExtra text) rest
termination_by words => words.length

private def readLine (topic : Topic) (awaited : Awaited) (line : List String) :
    Except Stop Reading := do
  let words ← (Word.classify topic.spellings line).mapError (Stop.usage topic)
  read topic awaited .start words

private def awaitedOf : Topic → Awaited
  | .program => .command
  | .run => .aliasAndRest
  | .resolve => .alias_
  | _ => .nothing

private def commandOf (topic : Topic) (reading : Reading) : Except Stop Subcommand :=
  let value (flag : Flag) : Option String := reading.values.lookup flag
  let missing (names : List String) : Except Stop Subcommand :=
    .error (.usage topic (.required names))
  match topic, reading.taken with
  | .run, some (name, rest) => .ok (.run name rest)
  | .run, none => missing ["alias", "args"]
  | .resolve, some (name, _) => .ok (.resolve name)
  | .resolve, none => missing ["alias"]
  | .lints, _ => .ok .lints
  | .ci, _ => .ok (.ci ⟨value .event, value .branch, value .manifest, value .report⟩)
  | .cargoConfig, _ => .ok .cargoConfig
  | .doctor, _ => .ok .doctor
  | .program, _ => missing ["command"]

/-- The arguments of a command line. Words that nobody waits for are found last. -/
def Arguments.parse (line : List String) : Except Stop Arguments := do
  let reading ← readLine .program .command line
  match reading.taken with
  | none => throw (.usage .program (.required ["command"]))
  | some (name, rest) =>
    match Topic.commands.lookup name with
    | none =>
      throw (.usage .program (.choiceUnknown "command" name (Topic.commands.map Prod.fst)))
    | some topic =>
      let inner ← readLine topic (awaitedOf topic) rest
      let command ← commandOf topic inner
      let extras := reading.extras ++ inner.extras
      if !extras.isEmpty then throw (.usage .program (.unrecognized extras))
      return {
        config := reading.values.lookup .config
        local_ := reading.values.lookup .local_
        verbose := (reading.values.lookup .verbose).isSome
        command }

end BuildRules.CommandLine
