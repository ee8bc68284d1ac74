import BuildRules.Proofs.Policy.Verified

/-! Vendored sources are there when the directory is, may be read, and has a directory of its own
for every requirement. Nothing else in it counts but the names of those directories. -/
namespace BuildRules

namespace FileTree

/-- A directory of this name stands in the directory that a path leads to. -/
def HasSubdirectory (tree : FileTree) (path : Path) (name : String) : Prop :=
  ∃ place, tree.place? path = some place ∧ (place ++ [name], Entry.directory) ∈ tree.entries

variable {tree : FileTree} {path : Path} {name : String}

/-- The directory that a path leads to can be searched in the other tree too, which has every
directory that stands in it. -/
structure GrowsAt (tree : FileTree) (path : Path) (grown : FileTree) : Prop where
  access : tree.access path = .ok true → grown.access path = .ok true
  names : ∀ name, tree.HasSubdirectory path name → grown.HasSubdirectory path name

theorem access_eq_true_iff : tree.access path = .ok true ↔
    tree.isDirectory path = .ok true ∧ tree.isOpen path = true ∧ tree.holdsTooLong path = false := by
  unfold access
  cases tree.isDirectory path with
  | error fault => simp
  | ok found => cases found <;> cases tree.isOpen path <;> cases tree.holdsTooLong path <;> simp

theorem access_eq_false_iff : tree.access path = .ok false ↔
    tree.isDirectory path = .ok false ∨
      tree.isDirectory path = .ok true ∧ tree.isOpen path = false := by
  unfold access
  cases tree.isDirectory path with
  | error fault => simp
  | ok found => cases found <;> cases tree.isOpen path <;> cases tree.holdsTooLong path <;> simp

theorem access_eq_error_iff {fault : Fault} : tree.access path = .error fault ↔
    tree.isDirectory path = .error fault ∨ tree.isDirectory path = .ok true ∧
      tree.isOpen path = true ∧ tree.holdsTooLong path = true ∧ fault = .nameTooLong := by
  unfold access
  cases tree.isDirectory path with
  | error fault => simp
  | ok found =>
    cases found <;> cases tree.isOpen path <;> cases tree.holdsTooLong path <;> simp [eq_comm]

theorem mem_subdirectories_iff :
    name ∈ tree.subdirectories path ↔ tree.HasSubdirectory path name := by
  unfold subdirectories HasSubdirectory
  cases tree.place? path with
  | none => simp
  | some place =>
    simp only [Option.some.injEq, exists_eq_left', List.mem_filterMap]
    constructor
    · rintro ⟨⟨there, entry⟩, member, listed⟩
      simp only [Bool.and_eq_true, beq_iff_eq, Option.ite_none_right_eq_some] at listed
      obtain ⟨⟨rfl, rfl⟩, last⟩ := listed
      rwa [List.dropLast_append_getLast? name last]
    · intro member
      exact ⟨_, member, by simp⟩

theorem growsAt_of_subset {grown : FileTree} (access : grown.access path = .ok true)
    (names : tree.subdirectories path ⊆ grown.subdirectories path) : tree.GrowsAt path grown := by
  refine ⟨fun _ => access, ?_⟩
  intro name held
  rw [← mem_subdirectories_iff] at held ⊢
  exact names held

end FileTree

namespace Requirement

/-- A directory that meets a requirement: the bare name, the name with the version that is asked
for, or, where none is, the name with something that begins with a digit. -/
inductive Takes (requirement : Requirement) (directory : String) : Prop where
  | bare (same : directory = requirement.name)
  | versioned (version : String) (asked : requirement.version = some version)
      (same : directory = requirement.name ++ "-" ++ version)
  | numbered (digit : Char) (rest : List Char) (unasked : requirement.version = none)
      (number : isDigitChar digit = true)
      (same : directory = requirement.name ++ "-" ++ String.ofList (digit :: rest))

variable {requirement : Requirement} {directory : String}

/-- The name and a hyphen, and what stands behind them. -/
theorem eq_append_iff {name rest : String} :
    directory = name ++ "-" ++ rest ↔
      (name.toList ++ ['-']).isPrefixOf directory.toList = true ∧
        directory.toList.drop (name.toList ++ ['-']).length = rest.toList := by
  rw [List.isPrefixOf_iff_prefix, ← String.toList_inj, String.toList_append, String.toList_append]
  constructor
  · intro whole
    rw [whole]
    exact ⟨List.prefix_append _ _, List.drop_left⟩
  · rintro ⟨⟨back, whole⟩, behind⟩
    rw [← whole, List.drop_left] at behind
    rw [← whole, behind]
    rfl

theorem isMetBy_iff : requirement.isMetBy directory = true ↔ requirement.Takes directory := by
  obtain ⟨name, version⟩ := requirement
  rw [isMetBy]
  by_cases bare : directory = name
  · simp only [bare, beq_self_eq_true, if_true, true_iff]
    exact .bare rfl
  · rw [if_neg (by simpa using bare)]
    constructor
    · intro met
      dsimp only at met
      split at met
      next stem =>
        cases version with
        | some version =>
          exact .versioned version rfl (eq_append_iff.mpr ⟨stem, beq_iff_eq.mp met⟩)
        | none =>
          dsimp only at met
          split at met
          next digit rest behind =>
            refine .numbered digit rest rfl met (eq_append_iff.mpr ⟨stem, ?_⟩)
            rw [behind, String.toList_ofList]
          next => cases met
      next => cases met
    · rintro (same | ⟨version, rfl, same⟩ | ⟨digit, rest, rfl, number, same⟩)
      · exact absurd same bare
      · obtain ⟨stem, behind⟩ := eq_append_iff.mp same
        simp only [stem, if_true, behind, beq_self_eq_true]
      · obtain ⟨stem, behind⟩ := eq_append_iff.mp same
        rw [String.toList_ofList] at behind
        simp only [stem, if_true, behind, number]

def MetIn (requirement : Requirement) (tree : FileTree) (path : Path) : Prop :=
  ∃ name, tree.HasSubdirectory path name ∧ requirement.Takes name

theorem any_isMetBy_iff {tree : FileTree} {path : Path} :
    (tree.subdirectories path).any requirement.isMetBy = true ↔ requirement.MetIn tree path := by
  simp only [List.any_eq_true, isMetBy_iff, FileTree.mem_subdirectories_iff]
  rfl

instance (requirement : Requirement) (tree : FileTree) (path : Path) :
    Decidable (requirement.MetIn tree path) :=
  decidable_of_iff _ any_isMetBy_iff

end Requirement

namespace VendorPolicy

variable {vendor : VendorPolicy} {tree other : FileTree} {base path : Path}

/-- The requirements without a directory of their own, as often and in the order as they are
declared. -/
def unmet (vendor : VendorPolicy) (tree : FileTree) (path : Path) : List Requirement :=
  vendor.requires.filter fun requirement => ¬ requirement.MetIn tree path

theorem missing_eq_unmet :
    missing vendor.requires (tree.subdirectories path) = vendor.unmet tree path := by
  unfold missing unmet
  congr 1
  funext requirement
  rw [Bool.eq_iff_iff, Bool.not_eq_true', ← Bool.not_eq_true, Requirement.any_isMetBy_iff,
    decide_eq_true_iff]

theorem unmet_eq_nil_iff :
    vendor.unmet tree path = [] ↔
      ∀ requirement ∈ vendor.requires, requirement.MetIn tree path := by
  simp [unmet]

theorem unmet_sublist
    (more : ∀ name, tree.HasSubdirectory path name → other.HasSubdirectory path name) :
    (vendor.unmet other path).Sublist (vendor.unmet tree path) := by
  apply List.monotone_filter_right
  intro requirement lacking
  rw [decide_eq_true_iff] at lacking ⊢
  rintro ⟨name, held, taken⟩
  exact lacking ⟨name, more name held, taken⟩

/-- What becomes of the switch, by the directory and by what stands in it. -/
structure Decided (vendor : VendorPolicy) (tree : FileTree) (base : Path) : Prop where
  off : vendor.verified tree base = .ok none ↔ vendor.enabled = false
  on : (∃ override, vendor.verified tree base = .ok (some override)) ↔
    vendor.enabled = true ∧ tree.isDirectory (vendor.directoryIn base) = .ok true ∧
      tree.isOpen (vendor.directoryIn base) = true ∧
      tree.holdsTooLong (vendor.directoryIn base) = false ∧
      ∀ requirement ∈ vendor.requires, requirement.MetIn tree (vendor.directoryIn base)
  override : ∀ override, vendor.verified tree base = .ok (some override) →
    override = vendor.overrideAt (vendor.directoryIn base)
  absent : vendor.verified tree base =
      .error (.config (.vendorDirectoryMissing (vendor.directoryIn base).display)) ↔
    vendor.enabled = true ∧ (tree.isDirectory (vendor.directoryIn base) = .ok false ∨
      tree.isDirectory (vendor.directoryIn base) = .ok true ∧
        tree.isOpen (vendor.directoryIn base) = false)
  incomplete : ∀ listed, vendor.verified tree base =
      .error (.config (.vendoredMissing (vendor.directoryIn base).display listed)) ↔
    vendor.enabled = true ∧ tree.access (vendor.directoryIn base) = .ok true ∧ listed ≠ [] ∧
      listed = (vendor.unmet tree (vendor.directoryIn base)).map Requirement.display
  blocked : ∀ fault, vendor.verified tree base = .error (.system fault) ↔
    vendor.enabled = true ∧ (tree.isDirectory (vendor.directoryIn base) = .error fault ∨
      tree.isDirectory (vendor.directoryIn base) = .ok true ∧
        tree.isOpen (vendor.directoryIn base) = true ∧
        tree.holdsTooLong (vendor.directoryIn base) = true ∧ fault = .nameTooLong)

theorem verified_eq (vendor : VendorPolicy) (tree : FileTree) (base : Path) :
    vendor.verified tree base =
      if vendor.enabled = true then
        match tree.access (vendor.directoryIn base) with
        | .error fault => .error (.system fault)
        | .ok false =>
          .error (.config (.vendorDirectoryMissing (vendor.directoryIn base).display))
        | .ok true =>
          if vendor.unmet tree (vendor.directoryIn base) = [] then
            .ok (some (vendor.overrideAt (vendor.directoryIn base)))
          else
            .error (.config (.vendoredMissing (vendor.directoryIn base).display
              ((vendor.unmet tree (vendor.directoryIn base)).map Requirement.display)))
      else .ok none := by
  unfold verified directoryIn
  dsimp only
  rw [missing_eq_unmet]
  cases vendor.unmet tree (base.within (Path.ofText vendor.path)) <;> rfl

theorem verified_eq_none_iff : vendor.verified tree base = .ok none ↔ vendor.enabled = false := by
  rw [verified_eq]
  split
  next on =>
    split
    next => simp [on]
    next => simp [on]
    next => split <;> simp [on]
  next off => simpa using off

theorem verified_eq_some_iff {override : VendorOverride} :
    vendor.verified tree base = .ok (some override) ↔
      vendor.enabled = true ∧ tree.access (vendor.directoryIn base) = .ok true ∧
        vendor.unmet tree (vendor.directoryIn base) = [] ∧
        override = vendor.overrideAt (vendor.directoryIn base) := by
  rw [verified_eq]
  split
  next on =>
    split
    next access => simp [access]
    next access => simp [access]
    next access =>
      split
      next met => simp [on, access, met, eq_comm]
      next unmet => simp [unmet]
  next off => simp [off]

theorem verified_absent_iff :
    vendor.verified tree base =
        .error (.config (.vendorDirectoryMissing (vendor.directoryIn base).display)) ↔
      vendor.enabled = true ∧ tree.access (vendor.directoryIn base) = .ok false := by
  rw [verified_eq]
  split
  next on =>
    split
    next access => simp [access]
    next access => simp [on, access]
    next access => split <;> simp [access]
  next off => simp [off]

theorem verified_incomplete_iff {listed : List String} :
    vendor.verified tree base =
        .error (.config (.vendoredMissing (vendor.directoryIn base).display listed)) ↔
      vendor.enabled = true ∧ tree.access (vendor.directoryIn base) = .ok true ∧ listed ≠ [] ∧
        listed = (vendor.unmet tree (vendor.directoryIn base)).map Requirement.display := by
  rw [verified_eq]
  split
  next on =>
    split
    next access => simp [access]
    next access => simp [access]
    next access =>
      split
      next met => simp [met]
      next unmet =>
        have reported :
            (vendor.unmet tree (vendor.directoryIn base)).map Requirement.display ≠ [] :=
          mt List.map_eq_nil_iff.mp unmet
        rw [Except.error.injEq, PolicyError.config.injEq, ConfigError.vendoredMissing.injEq]
        constructor
        · rintro ⟨-, rfl⟩
          exact ⟨on, access, reported, rfl⟩
        · rintro ⟨-, -, -, rfl⟩
          exact ⟨rfl, rfl⟩
  next off => simp [off]

theorem verified_blocked_iff {fault : FileTree.Fault} :
    vendor.verified tree base = .error (.system fault) ↔
      vendor.enabled = true ∧ tree.access (vendor.directoryIn base) = .error fault := by
  rw [verified_eq]
  split
  next on =>
    split
    next access => simp [on, access]
    next access => simp [access]
    next access => split <;> simp [access]
  next off => simp [off]

theorem decided (vendor : VendorPolicy) (tree : FileTree) (base : Path) :
    vendor.Decided tree base where
  off := verified_eq_none_iff
  on := by
    simp only [verified_eq_some_iff, FileTree.access_eq_true_iff, unmet_eq_nil_iff,
      exists_and_left, exists_eq, and_true, and_assoc]
  override := fun override switched => (verified_eq_some_iff.mp switched).2.2.2
  absent := by rw [verified_absent_iff, FileTree.access_eq_false_iff]
  incomplete := fun listed => verified_incomplete_iff
  blocked := fun fault => by rw [verified_blocked_iff, FileTree.access_eq_error_iff]

/-- The switch is decided by whether its directory may be searched, by the names of the directories
that stand in it, and by nothing else in the tree. More of them turn no success into a failure, and
nothing that was there before is missing. -/
theorem verified_by_subdirectories (vendor : VendorPolicy) (tree : FileTree) (base : Path) :
    vendor.Decided tree base ∧
      (∀ other, tree.access (vendor.directoryIn base) = other.access (vendor.directoryIn base) →
        (∀ name, tree.HasSubdirectory (vendor.directoryIn base) name ↔
          other.HasSubdirectory (vendor.directoryIn base) name) →
        vendor.verified other base = vendor.verified tree base) ∧
      ∀ grown, tree.GrowsAt (vendor.directoryIn base) grown →
        (∀ override, vendor.verified tree base = .ok override →
          vendor.verified grown base = .ok override) ∧
        ∀ listed, tree.access (vendor.directoryIn base) = .ok true →
          vendor.verified grown base =
            .error (.config (.vendoredMissing (vendor.directoryIn base).display listed)) →
          ∃ earlier, vendor.verified tree base =
              .error (.config (.vendoredMissing (vendor.directoryIn base).display earlier)) ∧
            listed.Sublist earlier := by
  refine ⟨vendor.decided tree base, ?_, ?_⟩
  · intro other access names
    have unmet : vendor.unmet other (vendor.directoryIn base) =
        vendor.unmet tree (vendor.directoryIn base) :=
      (unmet_sublist fun name => (names name).mp).antisymm
        (unmet_sublist fun name => (names name).mpr)
    rw [verified_eq, verified_eq, unmet, access]
  · intro grown grows
    have fewer : (vendor.unmet grown (vendor.directoryIn base)).Sublist
        (vendor.unmet tree (vendor.directoryIn base)) := unmet_sublist grows.names
    constructor
    · intro override switched
      cases override with
      | none => exact verified_eq_none_iff.mpr (verified_eq_none_iff.mp switched)
      | some override =>
        obtain ⟨on, access, met, same⟩ := verified_eq_some_iff.mp switched
        rw [met] at fewer
        exact verified_eq_some_iff.mpr
          ⟨on, grows.access access, List.sublist_nil.mp fewer, same⟩
    · intro listed access failed
      obtain ⟨on, -, some, rfl⟩ := verified_incomplete_iff.mp failed
      refine ⟨_, verified_incomplete_iff.mpr ⟨on, access, ?_, rfl⟩,
        fewer.map Requirement.display⟩
      intro none
      rw [List.map_eq_nil_iff.mp none] at fewer
      exact some (List.map_eq_nil_iff.mpr (List.sublist_nil.mp fewer))

def crates : VendorPolicy where
  enabled := true
  path := "vendor"
  replaces := "crates-io"
  sourceName := "vendored-sources"
  requires := [⟨"serde", none⟩, ⟨"serde-json", none⟩, ⟨"serde", some "1.0"⟩, ⟨"serde", none⟩]

/-- The shorter name is that of a file. -/
def partly : FileTree :=
  ⟨[(["vendor"], .directory), (["vendor", "serde"], .file ""),
    (["vendor", "serde-json"], .directory)], ⟨"/", []⟩, fun _ => .all⟩

def fully : FileTree :=
  { partly with entries := (["vendor", "serde-1.0"], .directory) :: partly.entries.reverse }

theorem crates_by_subdirectories :
    crates.verified partly partly.current =
        .error (.config (.vendoredMissing "/vendor" ["serde", "serde@1.0", "serde"])) ∧
      crates.Decided partly partly.current ∧
      partly.GrowsAt (crates.directoryIn partly.current) fully ∧
      crates.verified fully partly.current =
        .ok (some (crates.overrideAt (crates.directoryIn partly.current))) ∧
      ∀ grown, fully.GrowsAt (crates.directoryIn partly.current) grown →
        crates.verified grown partly.current =
          .ok (some (crates.overrideAt (crates.directoryIn partly.current))) := by
  have opened : fully.access (crates.directoryIn partly.current) = .ok true := rfl
  have grows : partly.GrowsAt (crates.directoryIn partly.current) fully :=
    FileTree.growsAt_of_subset opened (by decide)
  have switched : crates.verified fully partly.current =
      .ok (some (crates.overrideAt (crates.directoryIn partly.current))) := rfl
  refine ⟨rfl, (verified_by_subdirectories crates partly partly.current).1, grows,
    switched, ?_⟩
  intro grown further
  exact ((verified_by_subdirectories crates fully partly.current).2.2 grown further).1 _ switched

/-- The same directories, which may not be listed. -/
def unlisted : FileTree := { fully with rights := fun _ => ⟨false, true, true⟩ }

/-- A directory that is there with everything required is of no use if it may not be listed. -/
theorem unlisted_refused :
    unlisted.isDirectory (crates.directoryIn unlisted.current) = .ok true ∧
      (∀ requirement ∈ crates.requires,
        requirement.MetIn unlisted (crates.directoryIn unlisted.current)) ∧
      crates.verified unlisted unlisted.current =
        .error (.config (.vendorDirectoryMissing "/vendor")) :=
  ⟨rfl, by decide, rfl⟩

end VendorPolicy
end BuildRules
