import BuildRules.CargoConfig
import BuildRules.Proofs.Toml.Quoted
import BuildRules.Proofs.Text.Boundary

/-! Simple keys by their grammar, and what is written for a name. The pattern of bare names passes
over a line feed at their end, and such a name is written without quotes although it needs them.
Every other name without a delete character is the one that its key denotes, and is read back up to
what cannot go on with the key. -/
namespace BuildRules.Toml

theorem isBareChar_eq_isKeyChar (c : Char) : CargoConfig.isBareChar c = isKeyChar c := by
  have upper : c.isUpper = (decide ('A' ≤ c) && decide (c ≤ 'Z')) := Bool.decide_and _ _
  change (c.isUpper || c.isLower || c.isDigit || c == '_' || c == '-') = _
  rw [upper]
  rfl

/-- A name that needs no quotes as a key. -/
def BareKey (name : String) : Prop := name.toList ≠ [] ∧ ∀ c ∈ name.toList, isKeyChar c = true

instance (name : String) : Decidable (BareKey name) :=
  @instDecidableAnd _ _ _ (List.decidableBAll (fun c : Char => isKeyChar c = true) name.toList)

/-- A simple key, bare or a basic string, and the name that it denotes. -/
inductive SimpleKey (written name : String) : Prop where
  | bare (letters : BareKey name) (same : written = name)
  | quoted (string : BasicString written name)

def FedBare (name : String) : Prop := ∃ core, BareKey core ∧ name = core ++ "\n"

/-- A name that the key written for it denotes. -/
structure Keyable (name : String) : Prop where
  kept : '\x7f' ∉ name.toList
  unfed : ¬ FedBare name

/-- A name that is read back as it is written for a key: no delete character, and no line feed
at its end. -/
structure Nameable (name : String) : Prop where
  kept : '\x7f' ∉ name.toList
  ended : name.toList.getLast? ≠ some '\n'

theorem Nameable.keyable {name : String} (named : Nameable name) : Keyable name := by
  refine ⟨named.kept, ?_⟩
  rintro ⟨core, -, rfl⟩
  exact named.ended (by simp)

theorem ControlFree.keyable {name : String} (free : ControlFree name) : Keyable name := by
  refine ⟨free.kept, ?_⟩
  rintro ⟨core, -, rfl⟩
  exact absurd (free '\n' (by simp)).1 (by decide)

theorem BareKey.nameable {name : String} (bare : BareKey name) : Nameable name := by
  constructor
  · intro member
    exact absurd (bare.2 _ member) (by decide)
  · intro last
    exact absurd (bare.2 _ (List.mem_of_getLast? last)) (by decide)

/-- The pattern of bare names passes over one line feed at the end. -/
theorem isBare_iff {name : String} :
    CargoConfig.isBare name.toList = true ↔ BareKey name ∨ FedBare name := by
  by_cases ended : name.toList.getLast? = some '\n'
  · obtain ⟨front, shape⟩ := List.getLast?_eq_some_iff.mp ended
    have matched : CargoConfig.isBare name.toList = true ↔ BareKey (String.ofList front) := by
      simp [CargoConfig.isBare, shape, BareKey, isBareChar_eq_isKeyChar]
    rw [matched]
    constructor
    · intro bare
      refine .inr ⟨String.ofList front, bare, String.toList_injective ?_⟩
      simp [shape]
    · rintro (bare | ⟨core, bare, rfl⟩)
      · exact absurd ended bare.nameable.ended
      · have same : core.toList = front := by simpa using shape
        rwa [← same, String.ofList_toList]
  · have unfed : ¬ FedBare name := by
      rintro ⟨core, -, rfl⟩
      exact ended (by simp)
    have unended : (name.toList.getLast? == some '\n') = false := beq_eq_false_iff_ne.mpr ended
    simp [CargoConfig.isBare, unended, unfed, BareKey, isBareChar_eq_isKeyChar]

theorem BareKey.key_eq {name : String} (bare : BareKey name) : CargoConfig.key name = name :=
  if_pos (isBare_iff.mpr (.inl bare))

inductive Written (name : String) : String → Prop where
  | bare (letters : BareKey name) : Written name name
  | fed {core : String} (letters : BareKey core) (same : name = core ++ "\n") : Written name name
  | quoted (unfed : ¬ FedBare name) : Written name (Json.quoted name)

theorem written_key (name : String) : Written name (CargoConfig.key name) := by
  rw [CargoConfig.key]
  split
  next matched =>
    rcases isBare_iff.mp matched with letters | ⟨core, letters, same⟩
    · exact .bare letters
    · exact .fed letters same
  next unmatched => exact .quoted fun core => unmatched (isBare_iff.mpr (.inr core))

theorem head_key (name : String) :
    ∃ first rest, (CargoConfig.key name).toList = first :: rest ∧
      (first = '\x22' ∨ isKeyChar first = true) := by
  have letter {core : String} (letters : BareKey core) (after : List Char) :
      ∃ first rest, core.toList ++ after = first :: rest ∧
        (first = '\x22' ∨ isKeyChar first = true) := by
    obtain ⟨first, rest, whole⟩ := List.exists_cons_of_ne_nil letters.1
    exact ⟨first, rest ++ after, by simp [whole], .inr (letters.2 first (by simp [whole]))⟩
  have written := written_key name
  generalize CargoConfig.key name = key at written
  cases written with
  | bare letters => simpa using letter letters []
  | fed letters same =>
    subst same
    simpa using letter letters ['\n']
  | quoted unfed =>
    refine ⟨'\x22', name.toList.flatMap Json.escapeChar ++ ['\x22'], ?_, .inl rfl⟩
    simp [Json.quoted, Json.quotedChars]

theorem simpleKey?_bare {letters rest : List Char} (nonempty : letters ≠ [])
    (bare : ∀ c ∈ letters, isKeyChar c = true) (ends : Text.Ends isKeyChar rest) :
    simpleKey? (letters ++ rest) = some (String.ofList letters, rest) := by
  obtain ⟨first, more, rfl⟩ := List.exists_cons_of_ne_nil nonempty
  have unquoted : first ≠ '\x22' := by
    rintro rfl
    exact absurd (bare _ List.mem_cons_self) (by decide)
  have front := Text.takeWhile_run bare ends
  have back := Text.dropWhile_run bare ends
  rw [simpleKey?.eq_def]
  split
  next shape => exact absurd (List.cons.inj shape).1 unquoted
  next => simp only [front, back, List.isEmpty_cons, Bool.false_eq_true, if_false]

/-- The reader of simple keys takes exactly those of the grammar. -/
theorem simpleKey_iff {written name : String} :
    SimpleKey written name ↔ simpleKey? written.toList = some (name, []) := by
  constructor
  · intro key
    cases key with
    | bare letters same =>
      subst same
      have read := simpleKey?_bare letters.1 letters.2 Text.ends_nil
      rwa [List.append_nil, String.ofList_toList] at read
    | quoted string =>
      have read := quoted?_basicString.mp string
      obtain ⟨raw, shape, -⟩ := string
      rw [shape] at read ⊢
      exact read
  · intro read
    rw [simpleKey?.eq_def] at read
    split at read
    next => exact .quoted (quoted?_basicString.mpr read)
    next =>
      dsimp only at read
      split at read
      next => cases read
      next some =>
        obtain ⟨letters, rest⟩ := Prod.mk.inj (Option.some.inj read)
        -- nothing is left behind the letters, so they are all that is written
        have whole := List.takeWhile_append_dropWhile (p := isKeyChar) (l := written.toList)
        rw [rest, List.append_nil] at whole
        rw [whole, String.ofList_toList] at letters
        subst letters
        rw [whole] at some
        refine .bare ⟨by simpa using some, ?_⟩ rfl
        intro c member
        rw [← whole] at member
        exact List.mem_takeWhile_imp member

/-- What is read where the key for a name stands: the name, or what stands before the line feed of
a fed one, or nothing where there is a delete character. -/
inductive KeyRead (name : String) (rest : List Char) : Option (String × List Char) → Prop where
  | name (keyable : Keyable name) : KeyRead name rest (some (name, rest))
  | core {core : String} (letters : BareKey core) (same : name = core ++ "\n") :
      KeyRead name rest (some (core, '\n' :: rest))
  | nothing (member : '\x7f' ∈ name.toList) : KeyRead name rest none

theorem keyRead_key (name : String) {rest : List Char} (ends : Text.Ends isKeyChar rest) :
    KeyRead name rest (simpleKey? ((CargoConfig.key name).toList ++ rest)) := by
  have written := written_key name
  generalize CargoConfig.key name = key at written
  cases written with
  | bare letters =>
    rw [simpleKey?_bare letters.1 letters.2 ends, String.ofList_toList]
    exact .name letters.nameable.keyable
  | @fed core letters same =>
    have feed : name.toList ++ rest = core.toList ++ '\n' :: rest := by simp [same]
    rw [feed, simpleKey?_bare letters.1 letters.2 (Text.ends_cons (by decide)),
      String.ofList_toList]
    exact .core letters same
  | quoted unfed =>
    have opened : simpleKey? ((Json.quoted name).toList ++ rest) =
        quoted? ((Json.quoted name).toList ++ rest) := by
      rw [quoted_append]
      rfl
    rw [opened]
    by_cases member : '\x7f' ∈ name.toList
    · rw [quoted?_delete member]
      exact .nothing member
    · rw [quoted?_quoted member]
      exact .name ⟨member, unfed⟩

/-- A name that is written as a key is read back, whether quoted or bare. -/
theorem simpleKey?_key {name : String} (keyable : Keyable name) {rest : List Char}
    (ends : Text.Ends isKeyChar rest) :
    simpleKey? ((CargoConfig.key name).toList ++ rest) = some (name, rest) := by
  have read := keyRead_key name ends
  generalize simpleKey? ((CargoConfig.key name).toList ++ rest) = found at read
  cases read with
  | name => rfl
  | core letters same => exact absurd ⟨_, letters, same⟩ keyable.unfed
  | nothing member => exact absurd member keyable.kept

/-- The key for a name denotes the name and no other, unless the name is bare with a line feed
behind it or holds a delete character: then it is no key. -/
theorem simpleKey_key_iff {name denoted : String} :
    SimpleKey (CargoConfig.key name) denoted ↔ denoted = name ∧ Keyable name := by
  have read := keyRead_key name Text.ends_nil
  rw [List.append_nil] at read
  rw [simpleKey_iff]
  generalize simpleKey? (CargoConfig.key name).toList = found at read
  cases read with
  | name keyable => simp [keyable, eq_comm]
  | core letters same =>
    have unkeyable : ¬ Keyable name := fun keyable => keyable.unfed ⟨_, letters, same⟩
    simp [unkeyable]
  | nothing member =>
    have unkeyable : ¬ Keyable name := fun keyable => keyable.kept member
    simp [unkeyable]

end BuildRules.Toml
