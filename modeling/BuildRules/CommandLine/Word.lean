import BuildRules.Text.Digit

/-! What each word of a command line is to a parser, before the parser uses any of them. An
option may be shortened as long as only one has that beginning. -/
namespace BuildRules.CommandLine

inductive Flag where
  | help | version | verbose | config | local_ | event | branch | manifest | report
deriving DecidableEq

namespace Flag

def takesValue : Flag → Bool
  | .help | .version | .verbose => false
  | _ => true

def name : Flag → String
  | .help => "--help"
  | .version => "--version"
  | .verbose => "--verbose"
  | .config => "--config"
  | .local_ => "--local"
  | .event => "--event"
  | .branch => "--branch"
  | .manifest => "--manifest"
  | .report => "--report"

end Flag

/-- The options of a parser by their spellings. -/
abbrev Spellings := List (String × Flag)

def spellingsOf (flags : List Flag) : Spellings :=
  [("-h", .help), (Flag.help.name, .help)] ++ flags.map fun flag => (flag.name, flag)

/-- Text in the word of an option, after an equals sign or directly after one letter. -/
inductive Attached where
  | equals (text : List Char)
  | letters (text : List Char)

/-- What a word is. The first two hyphens on their own are a separator, and nothing after
them is an option. -/
inductive Role where
  | plain
  | separator
  | option (flag : Flag) (attached : Option Attached)
  | unknown

structure Word where
  text : String
  role : Role

inductive UsageError where
  | ambiguous (text : String) (spellings : List String)
  | valueMissing (flag : Flag)
  | valueUnwanted (flag : Flag) (value : String)
  | choiceUnknown (argument value : String) (choices : List String)
  | required (names : List String)
  | unrecognized (words : List String)
deriving DecidableEq

namespace Word

private def digits (text : List Char) : Bool := text.all isDecimalDigit

/-- An integer below zero, or digits with a point among them. One line feed at the end is
passed over. -/
def isNegativeNumber (text : List Char) : Bool :=
  match text with
  | '-' :: rest =>
    let rest := if rest.getLast? == some '\n' then rest.dropLast else rest
    let whole := rest.takeWhile (· != '.')
    match rest.dropWhile (· != '.') with
    | [] => !whole.isEmpty && digits whole
    | _ :: places => digits whole && !places.isEmpty && digits places
  | _ => false

/-- Options that a word which is no spelling may stand for. -/
private def readings (spellings : Spellings) (text : List Char) :
    List (String × Flag × Option Attached) :=
  match text with
  | '-' :: '-' :: _ =>
    let start := text.takeWhile (· != '=')
    let attached := ((text.dropWhile (· != '=')).tail?).map Attached.equals
    (spellings.filter fun entry => start.isPrefixOf entry.1.toList).map fun entry =>
      (entry.1, entry.2, attached)
  | '-' :: letter :: rest =>
    (spellings.filter fun entry => entry.1.toList == ['-', letter]).map fun entry =>
      (entry.1, entry.2, some (.letters rest))
  | _ => []

private def roleOfOption (spellings : Spellings) (text : List Char) : Except UsageError Role :=
  let start := String.ofList (text.takeWhile (· != '='))
  match spellings.lookup start, (text.dropWhile (· != '=')).tail? with
  | some flag, some value => .ok (.option flag (some (.equals value)))
  | _, _ =>
    match readings spellings text with
    | [(_, flag, attached)] => .ok (.option flag attached)
    | [] => .ok (if isNegativeNumber text || text.contains ' ' then .plain else .unknown)
    | several => .error (.ambiguous (String.ofList text) (several.map Prod.fst))

private def roleOf (spellings : Spellings) (text : String) : Except UsageError Role :=
  match text.toList with
  | '-' :: c :: rest =>
    match spellings.lookup text with
    | some flag => .ok (.option flag none)
    | none => roleOfOption spellings ('-' :: c :: rest)
  | _ => .ok .plain

/-- The words of a line as a parser with these options takes them. -/
def classify (spellings : Spellings) : List String → Except UsageError (List Word)
  | [] => .ok []
  | text :: rest => do
    if text == "--" then
      return ⟨text, .separator⟩ :: rest.map fun text => ⟨text, .plain⟩
    else
      let role ← roleOf spellings text
      return ⟨text, role⟩ :: (← classify spellings rest)

end Word
end BuildRules.CommandLine
