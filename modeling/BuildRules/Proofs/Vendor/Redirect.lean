import BuildRules.Proofs.CargoConfig
import BuildRules.Proofs.Toml.Decoding

/-! The argument that redirects a source, read as a document of its own, beside the header of the
source that it redirects to. The argument takes both names as they are, the header quotes its. -/
namespace BuildRules

open Toml

namespace VendorOverride

def redirect (override : VendorOverride) : String :=
  "source." ++ override.replaces ++ ".replace-with = \x22" ++ override.sourceName ++ "\x22"

def redirectPath (override : VendorOverride) : List String :=
  ["source", override.replaces, "replace-with"]

theorem bareKey_replaceWith : BareKey "replace-with" := by decide +kernel

variable {override : VendorOverride}

theorem arguments_eq (override : VendorOverride) :
    ∃ flags, override.arguments = "--config" :: override.redirect :: flags :=
  ⟨_, rfl⟩

/-- The replaced name stands behind the first dot, as it is. -/
theorem toList_redirect (override : VendorOverride) :
    override.redirect.toList = "source".toList ++ '.' :: (override.replaces.toList ++
      (".replace-with = ".toList ++ '\x22' :: (override.sourceName.toList ++ ['\x22']))) := by
  simp [redirect]

/-- A bare name makes the key a path of three names. -/
theorem toList_redirect_of_bareKey (bare : BareKey override.replaces) :
    override.redirect.toList = pathChars override.redirectPath ++
      ' ' :: '=' :: ' ' :: '\x22' :: (override.sourceName.toList ++ ['\x22']) := by
  rw [toList_redirect, redirectPath, pathChars_cons_cons, pathChars_cons_cons, pathChars_singleton,
    CargoConfig.bareKey_source.key_eq, bare.key_eq, bareKey_replaceWith.key_eq]
  simp

theorem nameable_redirectPath (bare : BareKey override.replaces) :
    ∀ name ∈ override.redirectPath, Nameable name := by
  refine List.forall_mem_cons.mpr ⟨CargoConfig.bareKey_source.nameable, ?_⟩
  exact List.forall_mem_cons.mpr ⟨bare.nameable,
    List.forall_mem_singleton.mpr bareKey_replaceWith.nameable⟩

theorem read_redirect (bare : BareKey override.replaces)
    (verbatim : Verbatim override.sourceName.toList) :
    Toml.read override.redirect =
      some (.single override.redirectPath (.text override.sourceName)) :=
  read_of_setting (List.cons_ne_nil _ _) (nameable_redirectPath bare)
    (toList_redirect_of_bareKey bare) (readsItem_verbatim verbatim)

/-- The path of the setting has three names only if the replaced one is bare. -/
theorem bareKey_of_keyPath? {fuel : Nat} {rest : List Char}
    (read : keyPath? fuel override.redirect.toList = some (override.redirectPath, rest)) :
    BareKey override.replaces := by
  have first (more : List Char) :=
    simpleKey?_bare CargoConfig.bareKey_source.1 CargoConfig.bareKey_source.2 (ends_dot more)
  rw [toList_redirect] at read
  obtain ⟨_, later⟩ := keyPath?_later (first _) read
  obtain ⟨_, key⟩ := simpleKey?_of_keyPath? later
  exact bareKey_of_simpleKey? (by decide) (by decide) key

/-- The setting is for three names and its value is the other name only if the one is bare and the
other stands for itself. -/
theorem plain_of_read_redirect
    (read : Toml.read override.redirect =
      some (.single override.redirectPath (.text override.sourceName))) :
    BareKey override.replaces ∧ Verbatim override.sourceName.toList := by
  obtain ⟨rest, assigned⟩ : ∃ rest, assignment? override.redirect.toList =
      some ((override.redirectPath, .text override.sourceName), rest) := by
    have starts : ∃ more, override.redirect.toList = 's' :: more := ⟨_, toList_redirect override⟩
    obtain ⟨more, starts⟩ := starts
    have lines := read_eq_single_iff.mp read
    rw [starts] at lines ⊢
    obtain ⟨found, rest, later, line, whole⟩ := line?_of_lines? lines
    rw [line?_assignment more (by decide) (by decide)] at line
    obtain ⟨⟨⟨path, item⟩, after⟩, assigned, line⟩ := Option.bind_eq_some_iff.mp line
    cases line
    cases whole
    exact ⟨_, assigned⟩
  obtain ⟨more, key, value⟩ := of_assignment? assigned
  have bare := bareKey_of_keyPath? key
  refine ⟨bare, ?_⟩
  have nonempty : override.redirectPath ≠ [] := List.cons_ne_nil _ _
  have keyable : ∀ name ∈ override.redirectPath, Keyable name :=
    fun name member => (nameable_redirectPath bare name member).keyable
  rw [toList_redirect_of_bareKey bare,
    keyPath?_equals nonempty keyable] at key
  cases key
  exact verbatim_of_item? value

theorem read_redirect_iff (override : VendorOverride) :
    Toml.read override.redirect =
        some (.single override.redirectPath (.text override.sourceName)) ↔
      BareKey override.replaces ∧ Verbatim override.sourceName.toList :=
  ⟨plain_of_read_redirect, fun plain => read_redirect plain.1 plain.2⟩

end VendorOverride

namespace VendorPolicy

variable {vendor : VendorPolicy}

theorem read_sourceHeader (named : Nameable vendor.sourceName) :
    Toml.read ("[source." ++ CargoConfig.key vendor.sourceName ++ "]") =
      some ⟨[], [⟨["source", vendor.sourceName], []⟩]⟩ := by
  have sound : (Document.ofLines [.table ["source", vendor.sourceName]]).Sound := by
    simp [Document.Sound, Document.ofLines, Document.headers, Document.settingPaths,
      Document.dottedTables]
  exact read_of_readsLine (CargoConfig.readsLine_sourceHeader named.keyable) sound

/-- The argument replaces the source by the one that the header defines if and only if the replaced
name needs no quotes as a key and the other stands for itself between quotes. -/
theorem redirect_names_source_iff (enabled : vendor.enabled = true) :
    ∃ argument header settings,
      (∀ directory, ∃ flags,
        (vendor.overrideAt directory).arguments = "--config" :: argument :: flags) ∧
      CargoConfig.sourceLines vendor = header :: settings ∧
      ((Toml.read argument = some
            (.single ["source", vendor.replaces, "replace-with"] (.text vendor.sourceName)) ∧
          Toml.read header = some ⟨[], [⟨["source", vendor.sourceName], []⟩]⟩) ↔
        BareKey vendor.replaces ∧ Verbatim vendor.sourceName.toList) := by
  let override := vendor.overrideAt (Path.ofText vendor.path)
  refine ⟨override.redirect, "[source." ++ CargoConfig.key vendor.sourceName ++ "]",
    ["directory = " ++ Json.quoted vendor.path, ""], ?_, if_pos enabled, ?_⟩
  · intro directory
    exact VendorOverride.arguments_eq (vendor.overrideAt directory)
  · constructor
    · rintro ⟨redirected, -⟩
      exact override.read_redirect_iff.mp redirected
    · rintro ⟨bare, verbatim⟩
      exact ⟨override.read_redirect_iff.mpr ⟨bare, verbatim⟩,
        read_sourceHeader verbatim.nameable⟩

def switchedOn : Value := .ofFields [("enabled", .bool true)]

theorem switchedOn_redirect_names_source :
    ∃ vendor argument header settings,
      VendorPolicy.parse switchedOn = .ok vendor ∧
      (∀ directory, ∃ flags,
        (vendor.overrideAt directory).arguments = "--config" :: argument :: flags) ∧
      CargoConfig.sourceLines vendor = header :: settings ∧
      Toml.read argument =
        some (.single ["source", "crates-io", "replace-with"] (.text "vendored-sources")) ∧
      Toml.read header = some ⟨[], [⟨["source", "vendored-sources"], []⟩]⟩ := by
  let vendor : VendorPolicy := ⟨true, "vendor", "crates-io", "vendored-sources", []⟩
  have enabled : vendor.enabled = true := rfl
  have plain : BareKey vendor.replaces ∧ Verbatim vendor.sourceName.toList := by decide +kernel
  obtain ⟨argument, header, settings, handed, written, same⟩ := redirect_names_source_iff enabled
  obtain ⟨redirected, defined⟩ := same.mpr plain
  exact ⟨vendor, argument, header, settings, rfl, handed, written, redirected, defined⟩

/-- A dot in the replaced name makes another key of it. -/
theorem dotted_redirect_names_another :
    ∃ vendor argument flags,
      VendorPolicy.parse
        (.ofFields [("enabled", .bool true), ("replaces", .text "my.registry")]) = .ok vendor ∧
      vendor.enabled = true ∧ vendor.replaces = "my.registry" ∧
      (vendor.overrideAt (Path.ofText vendor.path)).arguments = "--config" :: argument :: flags ∧
      Toml.read argument = some
        (.single ["source", "my", "registry", "replace-with"] (.text "vendored-sources")) := by
  let vendor : VendorPolicy := ⟨true, "vendor", "my.registry", "vendored-sources", []⟩
  refine ⟨vendor, (vendor.overrideAt (Path.ofText vendor.path)).redirect, _, rfl, rfl, rfl, rfl, ?_⟩
  have bare : ∀ name ∈ ["source", "my", "registry", "replace-with"], BareKey name := by
    decide +kernel
  have verbatim : Verbatim vendor.sourceName.toList := by decide +kernel
  have shape : (vendor.overrideAt (Path.ofText vendor.path)).redirect.toList =
      pathChars ["source", "my", "registry", "replace-with"] ++
        ' ' :: '=' :: ' ' :: '\x22' :: (vendor.sourceName.toList ++ ['\x22']) := by
    decide +kernel
  exact read_of_setting (List.cons_ne_nil _ _) (fun name member => (bare name member).nameable)
    shape (readsItem_verbatim verbatim)

end VendorPolicy
end BuildRules
