import BuildRules.Lint.Rule

/-! Compiler output read line by line. A note tells which lint a diagnostic comes from and
belongs to the last headline above it. A hyphen and an underscore in a lint's name are the
same to the compiler. -/
namespace BuildRules

/-- A diagnostic that the lint policy speaks of. -/
structure Violation where
  lint : String
  severity : Severity
  message : String
  note : String
deriving DecidableEq

def Violation.fatal (violation : Violation) : Bool := violation.severity == .deny

namespace Diagnostic

def normalize (name : List Char) : List Char :=
  name.map fun c => if c == '-' then '_' else c

def isNameChar (c : Char) : Bool :=
  c.isAlphanum || c == '_' || c == ':' || c == '-'

/-- The rest after a fixed text. -/
def after? (text : String) (chars : List Char) : Option (List Char) :=
  if text.toList.isPrefixOf chars then some (chars.drop text.length) else none

/-- A lint's name, at least one character, and what follows it. -/
def name? (chars : List Char) : Option (List Char × List Char) :=
  let name := chars.takeWhile isNameChar
  if name.isEmpty then none else some (name, chars.dropWhile isNameChar)

/-- A note of a flag given on the command line. -/
def commandLineHere (chars : List Char) : Option (List Char) := do
  let rest ← after? "requested on the command line with `-" chars
  match rest with
  | level :: rest =>
    if level == 'W' || level == 'D' then
      let (name, rest) ← name? (rest.dropWhile isBlank)
      let _ ← after? "`" rest
      return name
    else none
  | [] => none

def attributeLevel (level : String) (chars : List Char) : Option (List Char) := do
  let rest ← after? ("`#[" ++ level ++ "(") chars
  let (name, rest) ← name? rest
  let _ ← after? ")]`" rest
  return name

/-- A note of an attribute in the source. -/
def attributeHere (chars : List Char) : Option (List Char) :=
  attributeLevel "warn" chars <|> attributeLevel "deny" chars

/-- The first place of a line where something is found. -/
def search {α : Type} (here : List Char → Option α) : List Char → Option α
  | [] => here []
  | c :: rest => here (c :: rest) <|> search here rest

/-- The lint named by a line: by its first command-line note, else by its first attribute. -/
def notedName? (line : List Char) : Option (List Char) :=
  search commandLineHere line <|> search attributeHere line

def isCodeChar (c : Char) : Bool := c.isUpper || c.isDigit

/-- What follows a code in brackets after the level; all of it if there is no code. -/
def skipCode (chars : List Char) : List Char :=
  match chars with
  | '[' :: rest =>
    match rest.dropWhile isCodeChar with
    | ']' :: after => if (rest.takeWhile isCodeChar).isEmpty then chars else after
    | _ => chars
  | _ => chars

/-- The text of a headline. -/
def headline? (line : List Char) : Option (List Char) := do
  let rest ← after? "warning" line <|> after? "error" line
  let text ← after? ": " (skipCode rest)
  if text.isEmpty then none else some text

/-- The last effective lint whose name reads the same. -/
def lintFor? (effective : Entries String Severity) (name : List Char) :
    Option (String × Severity) :=
  (effective.filter fun entry => normalize entry.1.toList == normalize name).getLast?

/-- What one line is for a scan. -/
inductive Line where
  | headline (text : String)
  | violation (lint : String) (severity : Severity) (note : String)
  | other

def readLine (effective : Entries String Severity) (line : List Char) : Line :=
  let line := Text.trimChars line
  match headline? line with
  | some text => .headline (String.ofList text)
  | none =>
    match notedName? line with
    | none => .other
    | some name =>
      match lintFor? effective name with
      | none => .other
      | some (lint, severity) => .violation lint severity (String.ofList line)

def scanLines (headline : Option String) : List Line → List Violation
  | [] => []
  | .headline text :: rest => scanLines (some text) rest
  | .other :: rest => scanLines headline rest
  | .violation lint severity note :: rest =>
    ⟨lint, severity, headline.getD ("diagnóstico " ++ lint), note⟩ :: scanLines headline rest

end Diagnostic

/-- Every diagnostic of an output that the policy speaks of, in order. -/
def LintPolicy.scan (policy : LintPolicy) (output : String) : List Violation :=
  let effective := policy.effective
  Diagnostic.scanLines none
    ((Text.linesOfChars output.toList).map (Diagnostic.readLine effective))

end BuildRules
