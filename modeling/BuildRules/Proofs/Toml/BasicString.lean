import BuildRules.Proofs.Json.Quoted
import BuildRules.Proofs.Toml.Grammar

namespace BuildRules.Toml

/-- What may stand behind a backslash, and the character that it stands for. -/
def marks : List (Char × Char) :=
  [('b', '\x08'), ('t', '\t'), ('n', '\n'), ('f', '\x0c'), ('r', '\r'), ('\x22', '\x22'),
    ('\\', '\\')]

/-- How a character may be written: as itself, by its mark, or by its code in four or in eight
hexadecimal digits. -/
inductive Spells : List Char → Char → Prop where
  | itself {c : Char} (quote : c ≠ '\x22') (backslash : c ≠ '\\') (visible : isPlain c = true) :
      Spells [c] c
  | mark {mark c : Char} (listed : (mark, c) ∈ marks) : Spells ['\\', mark] c
  | short {digits : List Char} {c : Char} (count : digits.length = 4)
      (code : Json.hexDigits? digits = some c.toNat) : Spells ('\\' :: 'u' :: digits) c
  | long {digits : List Char} {c : Char} (count : digits.length = 8)
      (code : Json.hexDigits? digits = some c.toNat) : Spells ('\\' :: 'U' :: digits) c

/-- What is written between the quotes, and the text that it stands for. -/
inductive Stands : List Char → List Char → Prop where
  | nil : Stands [] []
  | cons {written raw text : List Char} {c : Char} (first : Spells written c)
      (later : Stands raw text) : Stands (written ++ raw) (c :: text)

/-- A basic string that stands for a text. -/
def BasicString (written value : String) : Prop :=
  ∃ raw, written.toList = '\x22' :: (raw ++ ['\x22']) ∧ Stands raw value.toList

section Reader

variable {chars rest digits : List Char} {c : Char} {count fuel : Nat}

theorem coded?_eq_some_iff :
    coded? count chars = some (c, rest) ↔
      ∃ digits, chars = digits ++ rest ∧ digits.length = count ∧
        Json.hexDigits? digits = some c.toNat := by
  constructor
  · intro read
    rw [coded?] at read
    split at read
    next enough =>
      obtain ⟨code, hex, read⟩ := Option.bind_eq_some_iff.mp read
      obtain ⟨decoded, valid, read⟩ := Option.bind_eq_some_iff.mp read
      rw [scalar?] at valid
      split at valid
      next scalar =>
        cases valid
        cases read
        have number : (Char.ofNat code).toNat = code := by
          rw [Char.ofNat, dif_pos scalar]
          rfl
        exact ⟨chars.take count, (List.take_append_drop count chars).symm, enough,
          by rw [hex, number]⟩
      next => cases valid
    next => cases read
  · rintro ⟨digits, rfl, length, code⟩
    have valid : c.toNat.isValidChar := c.valid
    rw [coded?, List.take_left' length, List.drop_left' length, if_pos length, code]
    simp [scalar?, valid]

theorem escape?_marks (rest : List Char) :
    ∀ pair ∈ marks, escape? (pair.1 :: rest) = some (pair.2, rest) := by
  simp only [marks, List.forall_mem_cons]
  exact ⟨rfl, rfl, rfl, rfl, rfl, rfl, rfl, List.forall_mem_nil _⟩

/-- The reader of escapes takes exactly the spellings with a backslash. -/
theorem escape?_eq_some_iff :
    escape? chars = some (c, rest) ↔ ∃ code, chars = code ++ rest ∧ Spells ('\\' :: code) c := by
  constructor
  · intro read
    have mark {first : Char} (listed : (first, c) ∈ marks) :
        ∃ code, first :: rest = code ++ rest ∧ Spells ('\\' :: code) c :=
      ⟨[first], rfl, .mark listed⟩
    unfold escape? at read
    split at read
    case h_8 =>
      obtain ⟨digits, rfl, length, code⟩ := coded?_eq_some_iff.mp read
      exact ⟨'u' :: digits, rfl, .short length code⟩
    case h_9 =>
      obtain ⟨digits, rfl, length, code⟩ := coded?_eq_some_iff.mp read
      exact ⟨'U' :: digits, rfl, .long length code⟩
    case h_10 => cases read
    all_goals
      cases read
      exact mark (by decide)
  · rintro ⟨code, rfl, spells⟩
    generalize whole : '\\' :: code = written at spells
    cases spells with
    | itself _ backslash _ => exact absurd (List.cons.inj whole).1.symm backslash
    | mark listed =>
      cases whole
      exact escape?_marks rest _ listed
    | short length hex =>
      cases whole
      exact coded?_eq_some_iff.mpr ⟨_, rfl, length, hex⟩
    | long length hex =>
      cases whole
      exact coded?_eq_some_iff.mpr ⟨_, rfl, length, hex⟩

/-- One spelling is one turn of the reader. -/
theorem textBody_spells {written : List Char} (spells : Spells written c) (fuel : Nat)
    (before rest : List Char) :
    textBody (fuel + 1) before (written ++ rest) = textBody fuel (c :: before) rest := by
  have escaped {code : List Char} (spells : Spells ('\\' :: code) c) :
      textBody (fuel + 1) before ('\\' :: code ++ rest) = textBody fuel (c :: before) rest := by
    change ((escape? (code ++ rest)).bind fun found =>
      textBody fuel (found.1 :: before) found.2) = _
    rw [escape?_eq_some_iff.mpr ⟨code, rfl, spells⟩]
    rfl
  cases spells with
  | itself quote backslash visible =>
    rw [List.singleton_append, textBody]
    simp [quote, backslash, visible]
  | mark listed => exact escaped (.mark listed)
  | short length code => exact escaped (.short length code)
  | long length code => exact escaped (.long length code)

theorem textBody_stands {raw text : List Char} (stands : Stands raw text)
    (room : text.length < fuel) (before rest : List Char) :
    textBody fuel before (raw ++ '\x22' :: rest) =
      some (String.ofList (before.reverse ++ text), rest) := by
  induction stands generalizing fuel before with
  | nil =>
    obtain ⟨fuel, rfl⟩ := Nat.exists_eq_succ_of_ne_zero (Nat.ne_of_gt room)
    rw [List.append_nil]
    rfl
  | cons first later ih =>
    obtain ⟨fuel, rfl⟩ := Nat.exists_eq_succ_of_ne_zero (Nat.ne_of_gt (Nat.zero_lt_of_lt room))
    rw [List.append_assoc, textBody_spells first, ih (Nat.lt_of_succ_lt_succ room),
      List.reverse_cons, List.append_assoc]
    rfl

theorem stands_of_textBody {before : List Char} {value : String}
    (read : textBody fuel before chars = some (value, rest)) :
    ∃ raw text, chars = raw ++ '\x22' :: rest ∧ Stands raw text ∧
      value = String.ofList (before.reverse ++ text) := by
  induction fuel generalizing before chars with
  | zero => cases read
  | succ fuel ih =>
    cases chars with
    | nil => cases read
    | cons c chars =>
      rw [textBody] at read
      split at read
      next quote =>
        cases read
        obtain rfl := eq_of_beq quote
        exact ⟨[], [], rfl, .nil, by rw [List.append_nil]⟩
      next quote =>
        split at read
        next backslash =>
          obtain rfl := eq_of_beq backslash
          obtain ⟨⟨decoded, after⟩, first, later⟩ := Option.bind_eq_some_iff.mp read
          obtain ⟨code, rfl, spells⟩ := escape?_eq_some_iff.mp first
          obtain ⟨raw, text, rfl, stands, rfl⟩ := ih later
          exact ⟨'\\' :: code ++ raw, decoded :: text, by simp, .cons spells stands, by simp⟩
        next backslash =>
          split at read
          next visible =>
            obtain ⟨raw, text, rfl, stands, rfl⟩ := ih read
            have spells : Spells [c] c :=
              .itself (by simpa using quote) (by simpa using backslash) visible
            exact ⟨[c] ++ raw, c :: text, rfl, .cons spells stands, by simp⟩
          next => cases read

/-- Every character of the text takes at least one to write. -/
theorem Stands.length_le {raw text : List Char} (stands : Stands raw text) :
    text.length ≤ raw.length := by
  induction stands with
  | nil => exact Nat.le_refl 0
  | @cons written raw text c first later ih =>
    have some : 0 < written.length := by cases first <;> exact Nat.succ_pos _
    rw [List.length_append, List.length_cons]
    omega

/-- The reader takes basic strings and nothing else, each for the text that it stands for. -/
theorem quoted?_eq_some_iff {value : String} :
    quoted? chars = some (value, rest) ↔
      ∃ raw, chars = '\x22' :: (raw ++ '\x22' :: rest) ∧ Stands raw value.toList := by
  constructor
  · intro read
    rw [quoted?.eq_def] at read
    split at read
    next =>
      obtain ⟨raw, text, rfl, stands, rfl⟩ := stands_of_textBody read
      exact ⟨raw, rfl, by simpa using stands⟩
    next => cases read
  · rintro ⟨raw, rfl, stands⟩
    have room : value.toList.length < (raw ++ '\x22' :: rest).length + 1 := by
      have longer := stands.length_le
      rw [List.length_append]
      omega
    rw [quoted?, textBody_stands stands room]
    simp

end Reader
end BuildRules.Toml
