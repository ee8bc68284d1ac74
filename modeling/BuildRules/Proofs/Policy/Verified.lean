import BuildRules.CargoConfig
import BuildRules.Invocation
import BuildRules.Proofs.Policy

namespace BuildRules

def VendorOverride.movedTo (override : VendorOverride) (directory : Path) : VendorOverride :=
  { override with directory }

/-- No argument of the switch names its directory. -/
theorem vendoredAlias_movedTo (override : Option VendorOverride) (directory : Path) :
    vendoredAlias (override.map (·.movedTo directory)) = vendoredAlias override := by
  cases override <;> rfl

def VendorPolicy.directoryIn (vendor : VendorPolicy) (base : Path) : Path :=
  base.within (Path.ofText vendor.path)

/-- The faults of a check: no directory, one without all that is required, or one that the system
does not let be looked at. -/
inductive VendorPolicy.Fault (tree : FileTree) (directory : Path) : PolicyError → Prop
  | absent (closed : tree.access directory = .ok false) :
      Fault tree directory (.config (.vendorDirectoryMissing directory.display))
  | incomplete (missing : List String) :
      Fault tree directory (.config (.vendoredMissing directory.display missing))
  | blocked {fault : FileTree.Fault} (refused : tree.access directory = .error fault) :
      Fault tree directory (.system fault)

theorem VendorPolicy.verified_cases (vendor : VendorPolicy) (tree : FileTree) (base : Path) :
    vendor.verified tree base =
        .ok (vendor.declared.map (·.movedTo (vendor.directoryIn base))) ∨
      ∃ error, vendor.verified tree base = .error error ∧
        Fault tree (vendor.directoryIn base) error := by
  unfold verified declared
  dsimp only
  split
  next =>
    split
    next fault refused => exact .inr ⟨_, rfl, .blocked refused⟩
    next closed => exact .inr ⟨_, rfl, .absent closed⟩
    next =>
      split
      next => exact .inl rfl
      next => exact .inr ⟨_, rfl, .incomplete _⟩
  next => exact .inl rfl

namespace Policy

def movedTo (policy : Policy) (directory : Path) : Policy :=
  { policy with override := policy.override.map (·.movedTo directory) }

variable {check : VendorCheck} {config : Record} {identity : String} {tree : FileTree} {base : Path}
  {policy declared : Policy} {error : PolicyError}

/-- Whatever the check, the same is read ahead of the switch and behind it. What stands behind it
sees the directory of the switch nowhere but in the policy itself. -/
theorem exists_rest (config : Record) (identity : String) :
    ∃ rest : String → VendorPolicy → Option VendorOverride → Except PolicyError Policy,
      (∀ check, loadSections check config identity = (do
        let toolchain ← toolchainOf config
        let vendor ← VendorPolicy.parse (← sectionOf config "vendor" .map)
        rest toolchain vendor (← overrideOf vendor check))) ∧
      ∀ toolchain vendor override directory,
        rest toolchain vendor (override.map (·.movedTo directory)) =
          (·.movedTo directory) <$> rest toolchain vendor override := by
  refine ⟨_, fun check => rfl, ?_⟩
  intro toolchain vendor override directory
  simp only [vendoredAlias_movedTo, map_bind]
  rfl

/-- The sections of a configuration of which one policy is known. -/
theorem Loads.exists_rest (loads : Loads check config policy) (identity : String) :
    ∃ rest : Option VendorOverride → Except PolicyError Policy,
      (∀ other, loadSections other config identity = overrideOf policy.vendor other >>= rest) ∧
      ∀ override directory, rest (override.map (·.movedTo directory)) =
        (·.movedTo directory) <$> rest override := by
  obtain ⟨rest, factors, moves⟩ := Policy.exists_rest config identity
  obtain ⟨section_, found, parsed⟩ := loads.vendor
  refine ⟨rest policy.toolchain policy.vendor, ?_, moves _ _⟩
  intro other
  rw [factors, loads.toolchain, found]
  change (VendorPolicy.parse section_ >>= _) = _
  rw [parsed]
  rfl

theorem loadSections_of_verified
    (read : loadSections (.verified tree base) config identity = .ok policy) :
    ∃ declared, loadSections .declared config identity = .ok declared ∧
      policy = declared.movedTo (declared.vendor.directoryIn base) := by
  obtain ⟨rest, factors, moves⟩ := (loads_of_loadSections read).exists_rest identity
  have unchecked : loadSections .declared config identity = rest policy.vendor.declared :=
    factors .declared
  have checked : (policy.vendor.verified tree base >>= rest) = .ok policy :=
    (factors _).symm.trans read
  rcases policy.vendor.verified_cases tree base with moved | ⟨error, refused, -⟩
  · rw [moved] at checked
    have mapped := (moves _ _).symm.trans checked
    rw [← unchecked] at mapped
    cases given : loadSections .declared config identity with
    | error error =>
      rw [given] at mapped
      cases mapped
    | ok declared =>
      rw [given] at mapped
      have same := Except.ok.inj mapped
      refine ⟨declared, rfl, ?_⟩
      have vendor : policy.vendor = declared.vendor := (congrArg Policy.vendor same).symm
      rw [← vendor]
      exact same.symm
  · rw [refused] at checked
    cases checked

theorem fault_of_verified (read : loadSections .declared config identity = .ok declared)
    (failed : loadSections (.verified tree base) config identity = .error error) :
    VendorPolicy.Fault tree (declared.vendor.directoryIn base) error := by
  obtain ⟨rest, factors, moves⟩ := (loads_of_loadSections read).exists_rest identity
  have unchecked : rest declared.vendor.declared = .ok declared :=
    (factors .declared).symm.trans read
  have checked : (declared.vendor.verified tree base >>= rest) = .error error :=
    (factors _).symm.trans failed
  rcases declared.vendor.verified_cases tree base with moved | ⟨fault, refused, reason⟩
  · rw [moved] at checked
    have mapped := (moves _ _).symm.trans checked
    rw [unchecked] at mapped
    cases mapped
  · rw [refused] at checked
    cases checked
    exact reason

/-- A policy of which nothing differs from another but the directory of the switch, which no use of
either shows. -/
structure SameBut (directory : Path) (declared policy : Policy) : Prop where
  moved : policy = declared.movedTo directory
  rendered : CargoConfig.render policy = CargoConfig.render declared
  resolved : ∀ name, policy.resolver.resolve name = declared.resolver.resolve name
  flags : policy.lints.flags = declared.lints.flags
  commands : ∀ environment directory arguments,
    policy.command environment directory arguments =
      declared.command environment directory arguments
  stages : ∀ stage, policy.stageArguments stage = declared.stageArguments stage
  identity : policy.identity = declared.identity

theorem sameBut_movedTo (declared : Policy) (directory : Path) :
    SameBut directory declared (declared.movedTo directory) :=
  ⟨rfl, rfl, fun _ => rfl, rfl, fun _ _ _ => rfl, fun _ => rfl, rfl⟩

/-- Verification of the vendored sources only checks. A policy that passes it is the one that is
read without, but for the directory of the switch. Where it alone fails, the directory is absent or
closed, or lacks what is required, or the system does not let it be looked at. -/
theorem verification_only_checks (tree : FileTree) (base : Path) (config : Value) :
    (∀ policy, load (.verified tree base) config = .ok policy →
      ∃ declared, load .declared config = .ok declared ∧
        SameBut (declared.vendor.directoryIn base) declared policy) ∧
    (∀ declared error, load .declared config = .ok declared →
      load (.verified tree base) config = .error error →
      VendorPolicy.Fault tree (declared.vendor.directoryIn base) error) := by
  constructor
  · intro policy loaded
    obtain ⟨entries, sections, text, rfl, read, written, rfl⟩ := sections_of_load loaded
    obtain ⟨declared, unchecked, rfl⟩ := loadSections_of_verified read
    exact ⟨_, load_eq_ok unchecked written, sameBut_movedTo _ _⟩
  · intro declared error loaded failed
    obtain ⟨entries, sections, text, rfl, read, written, rfl⟩ := sections_of_load loaded
    cases checked : loadSections (.verified tree base) entries "" with
    | error fault =>
      rw [load_eq_error checked] at failed
      cases failed
      have reason : VendorPolicy.Fault tree (sections.vendor.directoryIn base) error :=
        fault_of_verified read checked
      exact reason
    | ok other =>
      rw [load_eq_ok checked written] at failed
      cases failed

def vendoring : Value :=
  .map (Record.ofFields [("vendor", .map (Record.ofFields [("enabled", .bool true)]))])

def stocked : FileTree := ⟨[(["vendor"], .directory)], ⟨"/", []⟩, fun _ => .all⟩

theorem vendoring_checked :
    (∃ policy, load (.verified stocked stocked.current) vendoring = .ok policy ∧
      ∃ declared, load .declared vendoring = .ok declared ∧
        SameBut (declared.vendor.directoryIn stocked.current) declared policy) ∧
    ∃ declared error, load .declared vendoring = .ok declared ∧
      load (.verified (.empty stocked.current) stocked.current) vendoring = .error error ∧
      VendorPolicy.Fault (.empty stocked.current) (declared.vendor.directoryIn stocked.current)
        error := by
  have accepted : (load (.verified stocked stocked.current) vendoring).isOk = true := by
    decide +kernel
  have refused : (load (.verified (.empty stocked.current) stocked.current) vendoring).isOk =
      false := by decide +kernel
  obtain ⟨policy, loaded⟩ := exists_of_isOk accepted
  obtain ⟨declared, unchecked, same⟩ :=
    (verification_only_checks stocked stocked.current vendoring).1 policy loaded
  refine ⟨⟨policy, loaded, declared, unchecked, same⟩, ?_⟩
  cases failed : load (.verified (.empty stocked.current) stocked.current) vendoring with
  | ok other =>
    rw [failed] at refused
    cases refused
  | error error =>
    exact ⟨declared, error, unchecked, rfl,
      (verification_only_checks (.empty stocked.current) stocked.current vendoring).2 declared error
        unchecked failed⟩

/-- The same directory, in one that may not be entered. -/
def sealed : FileTree := { stocked with rights := fun _ => ⟨true, true, false⟩ }

/-- A directory that cannot be asked for is not refused as a missing one. -/
theorem vendoring_blocked : (load .declared vendoring).isOk = true ∧
    load (.verified sealed sealed.current) vendoring = .error (.system .denied) :=
  ⟨by decide +kernel, rfl⟩

end Policy
end BuildRules
