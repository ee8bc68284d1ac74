import BuildRules.Proofs.CargoConfig
import BuildRules.Proofs.Toml.Decoding

namespace BuildRules

theorem Alias.name_of_parse {name : String} {definition : Value} {entry : Alias}
    (parsed : Alias.parse (.text name) definition = .ok entry) : entry.name = name := by
  unfold Alias.parse at parsed
  dsimp only at parsed
  split at parsed
  next => cases parsed
  next =>
    split at parsed
    next =>
      obtain ⟨tokens, -, whole⟩ := bind_eq_ok.mp parsed
      cases whole
      rfl
    next =>
      obtain ⟨tokens, -, whole⟩ := bind_eq_ok.mp parsed
      cases whole
      rfl
    next => cases parsed

theorem VendorPolicy.sourceName_of_parse {entries : Record} {vendor : VendorPolicy}
    (parsed : VendorPolicy.parse (.map entries) = .ok vendor) :
    nameOf "vendored-sources" (Record.get? entries "source_name") = .ok vendor.sourceName := by
  obtain ⟨enabled, -, parsed⟩ := bind_eq_ok.mp parsed
  obtain ⟨path, -, parsed⟩ := bind_eq_ok.mp parsed
  obtain ⟨items, -, parsed⟩ := bind_eq_ok.mp parsed
  obtain ⟨replaces, -, parsed⟩ := bind_eq_ok.mp parsed
  obtain ⟨sourceName, named, parsed⟩ := bind_eq_ok.mp parsed
  obtain ⟨requires, -, parsed⟩ := bind_eq_ok.mp parsed
  cases parsed
  exact named

namespace CargoConfig

open Toml

theorem keyable_of_simpleKey? {name : String} {rest after : List Char}
    (ends : Text.Ends isKeyChar rest)
    (read : simpleKey? ((key name).toList ++ rest) = some (name, after)) : Keyable name := by
  have found := keyRead_key name ends
  rw [read] at found
  cases found with
  | name keyable => exact keyable
  | core letters same =>
    have longer := congrArg (fun text => text.toList.length) same
    simp at longer

/-- The line of an alias begins with the key for its name, and behind that stands the value. -/
theorem keyPath?_aliasLine_iff (entry : Alias) :
    keyPath? ((aliasLine entry).toList.length + 1) (aliasLine entry).toList =
        some ([entry.name], '=' :: ' ' :: (array (entry.tokens.map Token.text)).toList) ↔
      Keyable entry.name := by
  rw [toList_aliasLine]
  constructor
  · intro read
    obtain ⟨_, key⟩ := simpleKey?_of_keyPath? read
    exact keyable_of_simpleKey? (Text.ends_cons (by decide)) key
  · intro keyable
    have read := keyPath?_equals (List.cons_ne_nil entry.name [])
      (List.forall_mem_singleton.mpr keyable) (array (entry.tokens.map Token.text)).toList
    rwa [pathChars_singleton] at read

/-- The header of a source is the path of two keys, and nothing stands behind it. -/
theorem line?_sourceHeader_iff (name : String) :
    line? ("[source." ++ key name ++ "]").toList = some (some (.table ["source", name]), []) ↔
      Keyable name := by
  rw [toList_sourceHeader]
  constructor
  · intro read
    have path := keyPath?_of_line? read
    rw [skipBlank_of_solid (solid_pathChars (List.cons_ne_nil _ _) _), pathChars_cons_cons,
      bareKey_source.key_eq, List.append_assoc, List.cons_append] at path
    have source := simpleKey?_bare bareKey_source.1 bareKey_source.2
      (ends_dot (pathChars [name] ++ [']']))
    rw [String.ofList_toList] at source
    obtain ⟨less, later⟩ := keyPath?_later source path
    rw [skipBlank_of_solid (solid_pathChars (List.cons_ne_nil name []) _),
      pathChars_singleton] at later
    obtain ⟨_, key⟩ := simpleKey?_of_keyPath? later
    exact keyable_of_simpleKey? (Text.ends_cons (by decide)) key
  · intro keyable
    apply line?_table (List.cons_ne_nil _ _)
    exact List.forall_mem_cons.mpr ⟨bareKey_source.nameable.keyable,
      List.forall_mem_singleton.mpr keyable⟩

/-- The key for a declared name denotes the name and no other, the line of an alias that is accepted
under it begins with that one key, and the header of an accepted source of that name holds it and
nothing more, unless the name is bare with a line feed behind it or holds a delete character. -/
theorem declared_name_keyed_iff (name : String) :
    (∀ denoted, SimpleKey (key name) denoted ↔ denoted = name ∧ Keyable name) ∧
    (∀ definition entry, Alias.parse (.text name) definition = .ok entry →
      (keyPath? ((aliasLine entry).toList.length + 1) (aliasLine entry).toList =
          some ([name], '=' :: ' ' :: (array (entry.tokens.map Token.text)).toList) ↔
        Keyable name)) ∧
    ∀ entries vendor header settings, VendorPolicy.parse (.map entries) = .ok vendor →
      VendorPolicy.nameOf "vendored-sources" (Record.get? entries "source_name") = .ok name →
      sourceLines vendor = header :: settings →
      (line? header.toList = some (some (.table ["source", name]), []) ↔ Keyable name) := by
  refine ⟨fun denoted => simpleKey_key_iff, ?_, ?_⟩
  · intro definition entry parsed
    obtain rfl := Alias.name_of_parse parsed
    exact keyPath?_aliasLine_iff entry
  · intro entries vendor header settings parsed named written
    obtain rfl := Except.ok.inj ((VendorPolicy.sourceName_of_parse parsed).symm.trans named)
    rw [sourceLines] at written
    split at written
    next =>
      obtain ⟨rfl, -⟩ := List.cons.inj written
      exact line?_sourceHeader_iff vendor.sourceName
    next => cases written

/-- A dot, brackets, quotes, a letter beyond ASCII, and a line feed at the end. -/
def punctuated : String := "a.b[\x22ç\x22]\n"

def punctuatedSource : Record :=
  Record.ofFields [("enabled", .bool true), ("source_name", .text punctuated)]

theorem punctuated_name_keyed :
    ∃ entry vendor header settings,
      Alias.parse (.text punctuated) (.list [.text "build"]) = .ok entry ∧
      VendorPolicy.parse (.map punctuatedSource) = .ok vendor ∧
      sourceLines vendor = header :: settings ∧ SimpleKey (key punctuated) punctuated ∧
      keyPath? ((aliasLine entry).toList.length + 1) (aliasLine entry).toList =
        some ([punctuated], '=' :: ' ' :: (array (entry.tokens.map Token.text)).toList) ∧
      line? header.toList = some (some (.table ["source", punctuated]), []) := by
  let entry : Alias := ⟨punctuated, [.word "build"]⟩
  let vendor : VendorPolicy := ⟨true, "vendor", "crates-io", punctuated, []⟩
  have accepted : Alias.parse (.text punctuated) (.list [.text "build"]) = .ok entry := rfl
  have parsed : VendorPolicy.parse (.map punctuatedSource) = .ok vendor := rfl
  have keyable : Keyable punctuated := by
    refine ⟨by decide +kernel, ?_⟩
    intro fed
    exact absurd (isBare_iff.mpr (.inr fed)) (by decide +kernel)
  obtain ⟨denotes, line, opens⟩ := declared_name_keyed_iff punctuated
  exact ⟨entry, vendor, _, _, accepted, parsed, rfl, (denotes punctuated).mpr ⟨rfl, keyable⟩,
    (line _ entry accepted).mpr keyable, (opens _ vendor _ _ parsed rfl rfl).mpr keyable⟩

/-- A bare name with a line feed behind it is accepted, and no key is written for it. -/
theorem fed_name_not_keyed :
    ∃ entry, Alias.parse (.text "build\n") (.text "build") = .ok entry ∧
      entry.name = "build\n" ∧ ¬ ∃ denoted, SimpleKey (key entry.name) denoted := by
  refine ⟨⟨"build\n", [.word "build"]⟩, rfl, rfl, ?_⟩
  rintro ⟨denoted, denotes⟩
  have fed : FedBare "build\n" := ⟨"build", by decide +kernel, by decide⟩
  exact (simpleKey_key_iff.mp denotes).2.unfed fed

end CargoConfig
end BuildRules
