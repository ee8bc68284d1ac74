import BuildRules.Alias.Basic
import BuildRules.Vendor.Requirement
import BuildRules.Workspace.FileTree

namespace BuildRules

structure VendorPolicy where
  enabled : Bool
  path : String
  /-- The source that is replaced. -/
  replaces : String
  sourceName : String
  requires : List Requirement
deriving DecidableEq

/-- The replacement of a source by a directory. -/
structure VendorOverride where
  directory : Path
  replaces : String
  sourceName : String
  frozen : Bool
  offline : Bool
deriving DecidableEq

namespace VendorOverride

def arguments (override : VendorOverride) : List String :=
  ["--config",
    "source." ++ override.replaces ++ ".replace-with = \"" ++ override.sourceName ++ "\""] ++
  (if override.frozen then ["--frozen"] else []) ++
  (if override.offline then ["--offline"] else [])

/-- The settings that the switch stands for; the keys end differently, so they are two. -/
def settings (override : VendorOverride) : Entries String String :=
  [("source." ++ override.replaces ++ ".replace-with", override.sourceName),
    ("source." ++ override.sourceName ++ ".directory", override.directory.display)]

end VendorOverride

namespace VendorPolicy

def disabled : VendorPolicy := ⟨false, "vendor", "crates-io", "vendored-sources", []⟩

def enabledOf : Option Value → Except PolicyError Bool
  | none => .ok false
  | some (.bool value) => .ok value
  | some _ => .error (.raised .vendorEnabledNotBool)

def pathOf : Option Value → Except PolicyError String
  | none => .ok "vendor"
  | some (.text text) =>
    if Text.isBlankText text then .error (.raised .vendorPathBlank) else .ok text
  | some _ => .error (.raised .vendorPathBlank)

def requiresOf : Option Value → Except PolicyError (List Value)
  | none => .ok []
  | some (.list items) => .ok items
  | some other => if other.truthy then .error (.raised .vendorRequiresNotList) else .ok []

/-- A name is whatever stands under its key, as it is shown. -/
def nameOf (standard : String) : Option Value → Except PolicyError String
  | none => .ok standard
  | some value => value.display.mapError .shape

def parse (raw : Value) : Except PolicyError VendorPolicy :=
  match raw with
  | .null => .ok disabled
  | .map entries => do
    let enabled ← enabledOf (Record.get? entries "enabled")
    let path ← pathOf (Record.get? entries "path")
    let items ← requiresOf (Record.get? entries "requires")
    let replaces ← nameOf "crates-io" (Record.get? entries "replaces")
    let sourceName ← nameOf "vendored-sources" (Record.get? entries "source_name")
    let requires ← items.mapM Requirement.parse
    .ok { enabled, path, replaces, sourceName, requires }
  | _ => .error (.raised (.vendorSection raw.kind))

def overrideAt (policy : VendorPolicy) (directory : Path) : VendorOverride :=
  ⟨directory, policy.replaces, policy.sourceName, true, true⟩

/-- The switch as declared, without a look at the directory. -/
def declared (policy : VendorPolicy) : Option VendorOverride :=
  if policy.enabled then some (policy.overrideAt (Path.ofText policy.path)) else none

/-- Requirements without a directory of their own, in order. -/
def missing (requires : List Requirement) (directories : List String) : List Requirement :=
  requires.filter fun requirement => !directories.any requirement.isMetBy

/-- The switch, if the directory is there, may be read and holds everything required. -/
def verified (policy : VendorPolicy) (tree : FileTree) (base : Path) :
    Except PolicyError (Option VendorOverride) :=
  let directory := base.within (Path.ofText policy.path)
  if policy.enabled then
    match tree.access directory with
    | .error fault => .error (.system fault)
    | .ok false => .error (.raised (.vendorDirectoryMissing directory.display))
    | .ok true =>
      match missing policy.requires (tree.subdirectories directory) with
      | [] => .ok (some (policy.overrideAt directory))
      | absent =>
        .error (.raised (.vendoredMissing directory.display (absent.map Requirement.display)))
  else .ok none

end VendorPolicy

/-- The reserved alias: the arguments of the switch, or none. -/
def vendoredAlias (override : Option VendorOverride) : Alias :=
  ⟨Alias.vendoredName,
    match override with
    | none => []
    | some override => override.arguments.map .literal⟩

end BuildRules
