import BuildRules.Config.Merge
import BuildRules.Config.Packaged
import BuildRules.Json.Parse
import BuildRules.Text.Blank

/-! The configuration in force: a file of defaults, or the packaged policy, with a local
file laid over it. The suffix of a file decides its format. -/
namespace BuildRules.Config

inductive LoadError where
  | config (error : ConfigError)
  | shape (fault : Value.Fault)
  /-- A text that the reader of YAML refuses, and the class of its error. -/
  | yaml (kind : String)
  | json (error : Json.ParseError)
  | file (fault : FileTree.Fault)

def LoadError.ofPolicy : PolicyError → LoadError
  | .config error => .config error
  | .shape fault => .shape fault
  | .system fault => .file fault

def LoadError.raised (error : ConfigError) : LoadError := .ofPolicy (.raised error)

/-- A reader of YAML: the value of a text, or the class of the error that it raises. -/
abbrev YamlReader := String → Except String Value

inductive Format where
  | yaml
  | json
deriving DecidableEq

/-- Small and capital letters make no difference in a suffix. -/
def Format.ofSuffix? (suffix : String) : Option Format :=
  let lower := Text.lowerAscii suffix
  if lower == ".yaml" || lower == ".yml" then some .yaml
  else if lower == ".json" then some .json
  else none

def Format.read (yaml : YamlReader) (format : Format) (text : String) :
    Except LoadError Value :=
  let text := String.ofList (Text.unifyLineEnds text.toList)
  match format with
  | .yaml => (yaml text).mapError .yaml
  | .json => (Json.read text).mapError .json

/-- The content of a file must be a map; an empty file is an empty map. -/
def root : Value → Except LoadError Value
  | .null => .ok (.map [])
  | .map entries => .ok (.map entries)
  | value => .error (.raised (.rootNotMap value.kind))

def loadFile (yaml : YamlReader) (tree : FileTree) (path : Path) : Except LoadError Value := do
  if !(← (tree.has path).mapError .file) then throw (.raised (.policyMissing path.display))
  match Format.ofSuffix? path.suffix with
  | none => throw (.raised (.formatUnknown path.suffix))
  | some format =>
    let text ← (tree.read path).mapError .file
    root (← format.read yaml text)

/-- A local file that does not exist changes nothing. -/
def load (yaml : YamlReader) (tree : FileTree) (defaults local_ : Option String) :
    Except LoadError Value := do
  let base ←
    match defaults with
    | some path => loadFile yaml tree (.ofText path)
    | none => pure packaged
  match local_.map Path.ofText with
  | none => return base
  | some path =>
    if ← (tree.has path).mapError .file then
      let layer ← loadFile yaml tree path
      (overlay base layer).mapError .ofPolicy
    else return base

end BuildRules.Config
