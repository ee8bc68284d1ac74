import BuildRules.Alias.Expansion
import BuildRules.Config.Identity
import BuildRules.Environment
import BuildRules.Lint.Rule
import BuildRules.Stage.Plan
import BuildRules.Trigger
import BuildRules.Vendor.Source

/-! The typed policy of a configuration. A policy that loads can be used without further
checks: stages are planned and their aliases declared. -/
namespace BuildRules

structure Policy where
  toolchain : String
  vendor : VendorPolicy
  override : Option VendorOverride
  aliases : AliasTable
  lints : LintPolicy
  stages : List Stage
  triggers : TriggerPolicy
  environment : Environment
  doctor : List (List String)
  maxDepth : Nat
  positive : 0 < maxDepth
  identity : String

namespace Policy

def resolver (policy : Policy) : Resolver := ⟨policy.aliases, policy.maxDepth, policy.positive⟩

/-- A section that has a required type where it is present. -/
def sectionOf (config : Record) (name : String) (expected : Kind) :
    Except PolicyError Value :=
  match Record.get? config name with
  | none | some .null => .ok .null
  | some value =>
    if value.kind = expected then .ok value
    else .error (.raised (.sectionKind name expected value.kind))

/-- Entries of an optional map. -/
def entriesOf : Value → Record
  | .map entries => entries
  | _ => []

def toolchainOf (config : Record) : Except PolicyError String :=
  match Record.get? config "toolchain" with
  | none => .ok "cargo"
  | some (.text name) =>
    if Text.isBlankText name then .error (.raised .toolchainBlank) else .ok name
  | some _ => .error (.raised .toolchainBlank)

/-- Declared stages, each with its place as the ordinal it has by default. -/
def parseStages (place : Nat) : List Value → Except PolicyError (List Stage)
  | [] => .ok []
  | raw :: rest => do
    let stage ← Stage.parse raw place
    .ok (stage :: (← parseStages (place + 1) rest))

/-- The first stage whose alias is not declared. -/
def undeclared? (aliases : AliasTable) (stages : List Stage) : Option (String × String) :=
  stages.findSome? fun stage =>
    match stage.alias_ with
    | some name => if aliases.has name then none else some (stage.name, name)
    | none => none

def stagesOf (pipeline : Record) (aliases : AliasTable) :
    Except PolicyError (List Stage) := do
  let raw := (Record.get? pipeline "stages").getD .null
  if !raw.truthy then return []
  match raw with
  | .list items =>
    let stages ← parseStages 0 items
    match undeclared? aliases stages with
    | some (stage, name) => throw (.raised (.stageAliasUndeclared stage name))
    | none => planStages stages
  | _ => throw (.raised .stagesNotList)

def depthOf (resolver : Record) : Except PolicyError { depth : Nat // 0 < depth } :=
  match Record.get? resolver "max_depth" with
  | none => .ok ⟨Resolver.defaultDepth, by decide⟩
  | some (.int depth) =>
    if positive : 0 < depth.toNat then .ok ⟨depth.toNat, positive⟩
    else .error (.raised .depthLimit)
  | some _ => .error (.raised .depthLimit)

/-- A command is a list of texts or one text of several words, and never empty. -/
def doctorCommand (raw : Value) : Except PolicyError (List String) :=
  let entry :=
    match raw with
    | .text text => Value.ofTexts (Text.words text)
    | _ => raw
  match entry with
  | .list items =>
    match Value.asTexts? items with
    | some (first :: rest) => .ok (first :: rest)
    | _ => .error (.raised (.doctorCommand entry))
  | _ => .error (.raised (.doctorCommand entry))

def doctorOf : Value → Except PolicyError (List (List String))
  | .list items => items.mapM doctorCommand
  | _ => .ok []

/-- How the vendor switch is found: from the declaration alone, or by a look at its
directory. -/
inductive VendorCheck where
  | declared
  | verified (tree : FileTree) (base : Path)

def overrideOf (vendor : VendorPolicy) :
    VendorCheck → Except PolicyError (Option VendorOverride)
  | .declared => .ok vendor.declared
  | .verified tree base => vendor.verified tree base

/-- The policy without its identity. -/
def loadSections (check : VendorCheck) (config : Record) (identity : String) :
    Except PolicyError Policy := do
  let toolchain ← toolchainOf config
  let vendor ← VendorPolicy.parse (← sectionOf config "vendor" .map)
  let override ← overrideOf vendor check
  let aliases ←
    AliasTable.ofSection (← sectionOf config "aliases" .map) [vendoredAlias override]
  let lints ← LintPolicy.parse (← sectionOf config "lints" .list)
  let pipeline := entriesOf (← sectionOf config "pipeline" .map)
  let stages ← stagesOf pipeline aliases
  let triggers ← TriggerPolicy.parse ((Record.get? pipeline "triggers").getD .null)
  let environment ← Environment.parse ((Record.get? pipeline "environment").getD .null)
  let depth ← depthOf (entriesOf (← sectionOf config "resolver" .map))
  let doctor ← doctorOf (← sectionOf config "doctor" .list)
  .ok
    { toolchain, vendor, override, aliases, lints, stages, triggers, environment, doctor
      maxDepth := depth.val
      positive := depth.property
      identity }

/-- The policy of a configuration. Sections are read in a fixed order and the first fault
counts; the identity is taken last. -/
def load (check : VendorCheck) (config : Value) : Except PolicyError Policy :=
  match config with
  | .map entries =>
    match loadSections check entries "" with
    | .error error => .error error
    | .ok policy =>
      match Config.canonicalText config with
      | .error fault => .error (.shape fault)
      | .ok text => .ok { policy with identity := Sha256.hex text.toUTF8.toList }
  | _ => .error (.shape (.noEntries config.kind))

end Policy
end BuildRules
