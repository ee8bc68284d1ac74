import BuildRules.Json.Parse

/-! TOML as far as a native configuration uses it: headers of tables, keys that are bare or quoted,
single-line texts in double quotes, arrays, comments and both line ends. What lies outside is not
read at all. -/
namespace BuildRules.Toml

inductive Item where
  | text (value : String)
  | array (items : List Item)

/-- Characters that a key may hold without quotes. -/
def isKeyChar (c : Char) : Bool :=
  ('A' ≤ c && c ≤ 'Z') || ('a' ≤ c && c ≤ 'z') || ('0' ≤ c && c ≤ '9') || c == '_' || c == '-'

def isBlank (c : Char) : Bool := c == ' ' || c == '\t'

/-- Controls stand in a text or in a comment only as tabs. -/
def isPlain (c : Char) : Bool := c == '\t' || (32 ≤ c.toNat && c.toNat != 127)

def skipBlank (chars : List Char) : List Char := chars.dropWhile isBlank

/-- The rest after the end of a line. -/
def lineFeed? (chars : List Char) : Option (List Char) :=
  match chars with
  | '\n' :: rest => some rest
  | '\r' :: '\n' :: rest => some rest
  | _ => none

def skipComment (chars : List Char) : List Char :=
  match chars with
  | '#' :: rest => rest.dropWhile isPlain
  | _ => chars

/-- White space, comments and line ends. A comment that no line end follows is left. -/
def skipGap : Nat → List Char → List Char
  | 0, chars => chars
  | fuel + 1, chars =>
    let rest := skipBlank chars
    match lineFeed? (skipComment rest) with
    | some more => skipGap fuel more
    | none => rest

/-- The character of a code, unless it is a surrogate or too large. -/
def scalar? (code : Nat) : Option Char :=
  if code.isValidChar then some (Char.ofNat code) else none

/-- The character that exactly so many hexadecimal digits stand for. -/
def coded? (count : Nat) (chars : List Char) : Option (Char × List Char) :=
  if (chars.take count).length = count then do
    let code ← Json.hexDigits? (chars.take count)
    let c ← scalar? code
    some (c, chars.drop count)
  else none

/-- The character of an escape, by what follows the backslash. -/
def escape? (chars : List Char) : Option (Char × List Char) :=
  match chars with
  | 'b' :: rest => some ('\x08', rest)
  | 't' :: rest => some ('\t', rest)
  | 'n' :: rest => some ('\n', rest)
  | 'f' :: rest => some ('\x0c', rest)
  | 'r' :: rest => some ('\r', rest)
  | '\x22' :: rest => some ('\x22', rest)
  | '\\' :: rest => some ('\\', rest)
  | 'u' :: rest => coded? 4 rest
  | 'U' :: rest => coded? 8 rest
  | _ => none

/-- The rest of a text after its opening quote. -/
def textBody : Nat → List Char → List Char → Option (String × List Char)
  | 0, _, _ => none
  | _ + 1, _, [] => none
  | fuel + 1, written, c :: rest =>
    if c == '\x22' then some (String.ofList written.reverse, rest)
    else if c == '\\' then do
      let (decoded, after) ← escape? rest
      textBody fuel (decoded :: written) after
    else if isPlain c then textBody fuel (c :: written) rest
    else none

def quoted? (chars : List Char) : Option (String × List Char) :=
  match chars with
  | '\x22' :: rest => textBody (rest.length + 1) [] rest
  | _ => none

def simpleKey? (chars : List Char) : Option (String × List Char) :=
  match chars with
  | '\x22' :: _ => quoted? chars
  | _ =>
    let name := chars.takeWhile isKeyChar
    if name.isEmpty then none
    else some (String.ofList name, chars.dropWhile isKeyChar)

def keyPath? : Nat → List Char → Option (List String × List Char)
  | 0, _ => none
  | fuel + 1, chars => do
    let (name, rest) ← simpleKey? chars
    match skipBlank rest with
    | '.' :: more => do
      let (names, rest) ← keyPath? fuel (skipBlank more)
      some (name :: names, rest)
    | rest => some ([name], rest)

mutual

def item? : Nat → List Char → Option (Item × List Char)
  | 0, _ => none
  | fuel + 1, chars =>
    match chars with
    | '\x22' :: _ => (quoted? chars).map fun read => (.text read.1, read.2)
    | '[' :: rest => items? fuel [] (skipGap rest.length rest)
    | _ => none

def items? : Nat → List Item → List Char → Option (Item × List Char)
  | 0, _, _ => none
  | fuel + 1, read, chars =>
    match chars with
    | ']' :: after => some (.array read.reverse, after)
    | _ => do
      let (item, rest) ← item? fuel chars
      match skipGap rest.length rest with
      | ',' :: more => items? fuel (item :: read) (skipGap more.length more)
      | ']' :: after => some (.array (item :: read).reverse, after)
      | _ => none

end

def assignment? (chars : List Char) : Option ((List String × Item) × List Char) := do
  let (path, rest) ← keyPath? (chars.length + 1) chars
  match rest with
  | '=' :: more => do
    let (item, after) ← item? (2 * more.length + 2) (skipBlank more)
    some ((path, item), after)
  | _ => none

inductive Line where
  | table (path : List String)
  | setting (path : List String) (item : Item)

/-- What stands on a line, if anything does, up to its end or its comment. -/
def line? (chars : List Char) : Option (Option Line × List Char) :=
  match skipBlank chars with
  | '[' :: rest => do
    let (path, after) ← keyPath? (rest.length + 1) (skipBlank rest)
    match after with
    | ']' :: after => some (some (.table path), after)
    | _ => none
  | [] => some (none, [])
  | '#' :: rest => some (none, '#' :: rest)
  | '\n' :: rest => some (none, '\n' :: rest)
  | '\r' :: rest => some (none, '\r' :: rest)
  | chars => do
    let (setting, after) ← assignment? chars
    some (some (.setting setting.1 setting.2), after)

/-- The lines of a text. An array may run over several. -/
def lines? : Nat → List Char → Option (List Line)
  | 0, _ => none
  | fuel + 1, chars => do
    let (found, rest) ← line? chars
    match skipComment (skipBlank rest) with
    | [] => some found.toList
    | rest => do
      let more ← lineFeed? rest
      let later ← lines? fuel more
      some (found.toList ++ later)

/-- A table with its settings in order. -/
structure Section where
  path : List String
  settings : List (List String × Item)

/-- The settings before the first header, and the tables. -/
structure Document where
  root : List (List String × Item)
  sections : List Section

namespace Document

def ofLines : List Line → Document
  | [] => ⟨[], []⟩
  | .setting path item :: rest =>
    let document := ofLines rest
    { document with root := (path, item) :: document.root }
  | .table path :: rest =>
    let document := ofLines rest
    ⟨[], ⟨path, document.root⟩ :: document.sections⟩

def headers (document : Document) : List (List String) := document.sections.map Section.path

/-- The paths of all settings, each from the root. -/
def settingPaths (document : Document) : List (List String) :=
  document.root.map Prod.fst ++
    document.sections.flatMap fun table => table.settings.map fun setting => table.path ++ setting.1

/-- Tables that a key with dots stands for, below the table that it is in. -/
def innerTables (path key : List String) : List (List String) :=
  (List.range (key.length - 1)).map fun count => path ++ key.take (count + 1)

def dottedTables (document : Document) : List (List String) :=
  document.root.flatMap (fun setting => innerTables [] setting.1) ++
    document.sections.flatMap fun table =>
      table.settings.flatMap fun setting => innerTables table.path setting.1

/-- No table and no key is defined twice, no setting is used as a table, and no header opens a
table that a key with dots has made. -/
def Sound (document : Document) : Prop :=
  document.headers.Nodup ∧ document.settingPaths.Nodup ∧
    (∀ path ∈ document.settingPaths, ∀ other ∈ document.settingPaths,
      path <+: other → path = other) ∧
    (∀ path ∈ document.settingPaths, ∀ header ∈ document.headers, ¬ path <+: header) ∧
    ∀ table ∈ document.dottedTables, table ∉ document.headers

instance (document : Document) : Decidable document.Sound :=
  inferInstanceAs (Decidable (_ ∧ _))

end Document

def read (text : String) : Option Document := do
  let lines ← lines? (text.toList.length + 1) text.toList
  let document := Document.ofLines lines
  if document.Sound then some document else none

end BuildRules.Toml
