import BuildRules.CommandLine.Arguments
import BuildRules.Text.Quoted

namespace BuildRules.CommandLine

def programName : String := "buildgate"
def programVersion : String := "0.1.0"

def versionText : String := programName ++ " " ++ programVersion ++ "\n"

namespace Topic

def name (topic : Topic) : String :=
  match commands.find? fun entry => entry.2 == topic with
  | some (command, _) => programName ++ " " ++ command
  | none => programName

private def alternatives (names : List String) : String :=
  "\x7b" ++ ",".intercalate names ++ "\x7d"

private def commandNames : String := alternatives (commands.map Prod.fst)
private def eventNames : String := alternatives ["push", "pull_request"]

/-- How the arguments are written down, on lines below each other. -/
private def synopsis : Topic → List String
  | .program =>
    ["[-h] [--config CONFIG] [--local LOCAL] [--verbose]", "[--version]", commandNames ++ " ..."]
  | .run => ["[-h] alias ..."]
  | .resolve => ["[-h] alias"]
  | .ci =>
    ["[-h] [--event " ++ eventNames ++ "] [--branch BRANCH]",
      "[--manifest MANIFEST] [--report REPORT]"]
  | .lints | .cargoConfig | .doctor => ["[-h]"]

def usage (topic : Topic) : String :=
  let start := "usage: " ++ topic.name ++ " "
  let margin := String.ofList ('\n' :: List.replicate start.length ' ')
  start ++ margin.intercalate topic.synopsis ++ "\n"

private def helpOf : Topic → String
  | .program =>
    "Reproducible build policy for Cargo workspaces\n\npositional arguments:\n  " ++
    commandNames ++ "
    run                 Resolve and execute an alias
    resolve             Print the resolved argv as JSON
    lints               Print effective lint flags
    ci                  Run the CI pipeline
    cargo-config        Print the policy as .cargo/config.toml
    doctor              Print toolchain versions

options:
  -h, --help            show this help message and exit
  --config CONFIG       Defaults policy file (packaged policy when omitted)
  --local LOCAL         Optional local override file
  --verbose
  --version             show program's version number and exit
"
  | .run =>
    "positional arguments:\n  alias\n  args\n\n" ++
    "options:\n  -h, --help  show this help message and exit\n"
  | .resolve =>
    "positional arguments:\n  alias\n\n" ++
    "options:\n  -h, --help  show this help message and exit\n"
  | .ci =>
    "options:\n  -h, --help            show this help message and exit\n  --event " ++
    eventNames ++ "
  --branch BRANCH
  --manifest MANIFEST   Write the run Manifest (JSON) here
  --report REPORT       Write the Markdown CI report here
"
  | .lints | .cargoConfig | .doctor => "options:\n  -h, --help  show this help message and exit\n"

def help (topic : Topic) : String := topic.usage ++ "\n" ++ topic.helpOf

end Topic

namespace UsageError

private def nameOf (flag : Flag) : String :=
  if flag = .help then "-h/" ++ flag.name else flag.name

def message : UsageError → String
  | .ambiguous text spellings =>
    "ambiguous option: " ++ text ++ " could match " ++ ", ".intercalate spellings
  | .valueMissing flag => "argument " ++ nameOf flag ++ ": expected one argument"
  | .valueUnwanted flag value =>
    "argument " ++ nameOf flag ++ ": ignored explicit argument " ++ Text.quoted value
  | .choiceUnknown argument value choices =>
    "argument " ++ argument ++ ": invalid choice: " ++ Text.quoted value ++ " (choose from " ++
      ", ".intercalate (choices.map Text.quoted) ++ ")"
  | .required names => "the following arguments are required: " ++ ", ".intercalate names
  | .unrecognized words => "unrecognized arguments: " ++ " ".intercalate words

end UsageError

namespace Stop

/-- Zero where the program said what it was asked for. -/
def code : Stop → Int
  | .help _ | .version => 0
  | .usage .. => 2

def output : Stop → String
  | .help topic => topic.help
  | .version => versionText
  | .usage .. => ""

def diagnostics : Stop → String
  | .usage topic error => topic.usage ++ topic.name ++ ": error: " ++ error.message ++ "\n"
  | .help _ | .version => ""

end Stop
end BuildRules.CommandLine
