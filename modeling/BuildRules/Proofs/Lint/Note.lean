import BuildRules.Lint.Diagnostic
import BuildRules.Proofs.First
import BuildRules.Proofs.Text.Boundary
import Mathlib.Data.List.Infix

namespace BuildRules.Diagnostic

open Text

/-- The name of a lint as notes spell it. -/
structure Spelled (name : List Char) : Prop where
  nonempty : name ≠ []
  letters : ∀ c ∈ name, isNameChar c = true

/-- What begins with a note of a flag on the command line. -/
inductive FlagNote : List Char → List Char → Prop where
  | intro {flag : Char} {blanks name : List Char} (level : flag = 'W' ∨ flag = 'D')
      (blank : ∀ c ∈ blanks, isBlank c = true) (spelled : Spelled name) (rest : List Char) :
    FlagNote ("requested on the command line with `-".toList ++
      flag :: (blanks ++ (name ++ ("`".toList ++ rest)))) name

/-- What begins with a note of an attribute in the source. -/
inductive AttributeNote : List Char → List Char → Prop where
  | intro {level : String} {name : List Char} (known : level = "warn" ∨ level = "deny")
      (spelled : Spelled name) (rest : List Char) :
    AttributeNote (("`#[" ++ level ++ "(").toList ++ (name ++ (")]`".toList ++ rest))) name

inductive Coded : List Char → Prop where
  | plain : Coded []
  | code {code : List Char} (nonempty : code ≠ []) (letters : ∀ c ∈ code, isCodeChar c = true) :
    Coded ('[' :: (code ++ [']']))

inductive Headline : List Char → List Char → Prop where
  | intro {level : String} {code text : List Char} (known : level = "warning" ∨ level = "error")
      (coded : Coded code) (nonempty : text ≠ []) :
    Headline (level.toList ++ (code ++ (": ".toList ++ text))) text

/-- The name in the first note of a kind in a line. -/
def FirstNote (note : List Char → List Char → Prop) (line name : List Char) : Prop :=
  ∃ place, First (fun place => ∃ name, note place name) line.tails place ∧ note place name

/-- The name that a line notes. Any note of a flag goes before the notes of attributes. -/
inductive Noted (line : List Char) : List Char → Prop where
  | flagged {name : List Char} (first : FirstNote FlagNote line name) : Noted line name
  | attributed {name : List Char}
      (flagless : ∀ place, place <:+ line → ∀ name, ¬ FlagNote place name)
      (first : FirstNote AttributeNote line name) : Noted line name

variable {chars line name rest text : List Char}

theorem orElse_eq_some_iff {α : Type} {first second : Option α} {found : α} :
    (first <|> second) = some found ↔
      first = some found ∨ (first = none ∧ second = some found) := by
  rw [Option.orElse_eq_orElse, Option.orElse_eq_or, Option.or_eq_some_iff]

theorem after?_eq_some_iff {front : String} :
    after? front chars = some rest ↔ chars = front.toList ++ rest := by
  unfold after?
  constructor
  · intro found
    split at found
    next begins =>
      obtain ⟨back, rfl⟩ := List.isPrefixOf_iff_prefix.mp begins
      rw [← String.length_toList, List.drop_left] at found
      rw [Option.some.inj found]
    next => cases found
  · rintro rfl
    have begins := List.isPrefixOf_iff_prefix.mpr (List.prefix_append front.toList rest)
    rw [if_pos begins, ← String.length_toList, List.drop_left]

theorem after?_append (front : String) (rest : List Char) :
    after? front (front.toList ++ rest) = some rest :=
  after?_eq_some_iff.mpr rfl

theorem not_isBlank_of_isNameChar {c : Char} (letter : isNameChar c = true) :
    isBlank c = false := by
  have code : c.toNat = 95 ∨ c.toNat = 58 ∨ c.toNat = 45 ∨ (65 ≤ c.toNat ∧ c.toNat ≤ 90) ∨
      (97 ≤ c.toNat ∧ c.toNat ≤ 122) ∨ (48 ≤ c.toNat ∧ c.toNat ≤ 57) := by
    simp only [isNameChar, Bool.or_eq_true, beq_iff_eq] at letter
    rcases letter with ((alphanumeric | rfl) | rfl) | rfl
    · unfold Char.isAlphanum Char.isAlpha Char.isUpper Char.isLower Char.isDigit at alphanumeric
      simp only [Bool.or_eq_true, Bool.and_eq_true, decide_eq_true_eq, ge_iff_le,
        UInt32.le_iff_toNat_le] at alphanumeric
      rcases alphanumeric with (⟨low, high⟩ | ⟨low, high⟩) | ⟨low, high⟩
      · exact .inr (.inr (.inr (.inl ⟨low, high⟩)))
      · exact .inr (.inr (.inr (.inr (.inl ⟨low, high⟩))))
      · exact .inr (.inr (.inr (.inr (.inr ⟨low, high⟩))))
    · exact .inl rfl
    · exact .inr (.inl rfl)
    · exact .inr (.inr (.inl rfl))
  simp only [isBlank, CodeRanges.has, blankRanges, List.any_cons, List.any_nil]
  simp
  omega

theorem Spelled.ends (spelled : Spelled name) (rest : List Char) :
    Text.Ends isBlank (name ++ rest) := by
  cases name with
  | nil => exact absurd rfl spelled.nonempty
  | cons c name =>
    exact ends_cons (not_isBlank_of_isNameChar (spelled.letters c List.mem_cons_self))

/-- A name is read up to the first character that is none of a name. -/
theorem name?_eq_some_iff : name? chars = some (name, rest) ↔
    Spelled name ∧ Text.Ends isNameChar rest ∧ chars = name ++ rest := by
  constructor
  · intro found
    simp only [name?] at found
    split at found
    next => cases found
    next nonempty =>
      obtain ⟨rfl, rfl⟩ := Prod.mk.inj (Option.some.inj found)
      refine ⟨⟨by simpa using nonempty, ?_⟩, ?_, List.takeWhile_append_dropWhile.symm⟩
      · intro c member
        exact List.mem_takeWhile_imp member
      · intro c first
        have stopped := List.head?_dropWhile_not isNameChar chars
        rw [Option.mem_def.mp first] at stopped
        simpa using stopped
  · rintro ⟨spelled, ends, rfl⟩
    have present : name.isEmpty = false := by simpa using spelled.nonempty
    simp only [name?, takeWhile_run spelled.letters ends, dropWhile_run spelled.letters ends, present]
    rfl

/-- A name is read in front of a text that goes on with no name. -/
theorem enclosed_eq_some_iff {close : String}
    (stop : ∀ rest, Text.Ends isNameChar (close.toList ++ rest)) :
    (do
      let (name, rest) ← name? chars
      let _ ← after? close rest
      return name) = some name ↔
      Spelled name ∧ ∃ rest, chars = name ++ (close.toList ++ rest) := by
  constructor
  · intro found
    obtain ⟨⟨spelling, back⟩, read, closing⟩ := Option.bind_eq_some_iff.mp found
    obtain ⟨rest, closed, returned⟩ := Option.bind_eq_some_iff.mp closing
    cases returned
    obtain ⟨spelled, -, whole⟩ := name?_eq_some_iff.mp read
    exact ⟨spelled, rest, after?_eq_some_iff.mp closed ▸ whole⟩
  · rintro ⟨spelled, rest, rfl⟩
    rw [name?_eq_some_iff.mpr ⟨spelled, stop rest, rfl⟩]
    simp only [Option.bind_eq_bind, Option.bind_some, after?_append]
    rfl

theorem commandLineHere_eq_some_iff : commandLineHere chars = some name ↔ FlagNote chars name := by
  have stop (rest : List Char) : Text.Ends isNameChar ("`".toList ++ rest) := ends_cons rfl
  constructor
  · intro found
    obtain ⟨back, begun, further⟩ := Option.bind_eq_some_iff.mp found
    split at further
    next flag front =>
      split at further
      next level =>
        obtain ⟨spelled, rest, whole⟩ := (enclosed_eq_some_iff stop).mp further
        have blank : ∀ c ∈ front.takeWhile isBlank, isBlank c = true := fun c member =>
          List.mem_takeWhile_imp member
        have note := FlagNote.intro (by simpa using level) blank spelled rest
        rwa [← whole, List.takeWhile_append_dropWhile, ← after?_eq_some_iff.mp begun] at note
      next => cases further
    next => cases further
  · rintro ⟨level, blank, spelled, rest⟩
    have read := (enclosed_eq_some_iff stop).mpr ⟨spelled, rest, rfl⟩
    rw [commandLineHere, after?_append]
    simp only [Option.bind_eq_bind, Option.bind_some, dropWhile_run blank (spelled.ends _)]
    rw [if_pos (by simpa using level)]
    exact read

theorem attributeLevel_eq_some_iff {level : String} : attributeLevel level chars = some name ↔
    Spelled name ∧ ∃ rest,
      chars = ("`#[" ++ level ++ "(").toList ++ (name ++ (")]`".toList ++ rest)) := by
  have stop (rest : List Char) : Text.Ends isNameChar (")]`".toList ++ rest) := ends_cons rfl
  constructor
  · intro found
    obtain ⟨front, begun, rest⟩ := Option.bind_eq_some_iff.mp found
    obtain ⟨spelled, back, rfl⟩ := (enclosed_eq_some_iff stop).mp rest
    exact ⟨spelled, back, after?_eq_some_iff.mp begun⟩
  · rintro ⟨spelled, rest, rfl⟩
    have read := (enclosed_eq_some_iff stop).mpr ⟨spelled, rest, rfl⟩
    rw [attributeLevel, after?_append]
    exact read

theorem attributeHere_eq_some_iff : attributeHere chars = some name ↔ AttributeNote chars name := by
  constructor
  · intro found
    rw [attributeHere, orElse_eq_some_iff] at found
    rcases found with warned | ⟨-, denied⟩
    · obtain ⟨spelled, rest, rfl⟩ := attributeLevel_eq_some_iff.mp warned
      exact .intro (.inl rfl) spelled rest
    · obtain ⟨spelled, rest, rfl⟩ := attributeLevel_eq_some_iff.mp denied
      exact .intro (.inr rfl) spelled rest
  · rintro @⟨level, _, known, spelled, rest⟩
    have read : attributeLevel level
        (("`#[" ++ level ++ "(").toList ++ (name ++ (")]`".toList ++ rest))) = some name :=
      attributeLevel_eq_some_iff.mpr ⟨spelled, rest, rfl⟩
    rw [attributeHere, orElse_eq_some_iff]
    rcases known with rfl | rfl
    · exact .inl read
    · -- A denial is not taken for a warning.
      exact .inr ⟨rfl, read⟩

theorem skipCode_eq_some_iff : after? ": " (skipCode chars) = some text ↔
    ∃ code, Coded code ∧ chars = code ++ (": ".toList ++ text) := by
  constructor
  · intro found
    have rest := after?_eq_some_iff.mp found
    unfold skipCode at rest
    split at rest
    next inside =>
      split at rest
      next closed =>
        split at rest
        next => exact ⟨[], .plain, rest⟩
        next nonempty =>
          have letters : ∀ c ∈ inside.takeWhile isCodeChar, isCodeChar c = true := fun c member =>
            List.mem_takeWhile_imp member
          have whole := List.takeWhile_append_dropWhile (p := isCodeChar) (l := inside)
          rw [closed, rest] at whole
          refine ⟨_, .code (by simpa using nonempty) letters, ?_⟩
          simpa using whole.symm
      next => exact ⟨[], .plain, rest⟩
    next => exact ⟨[], .plain, rest⟩
  · rintro ⟨code, coded, rfl⟩
    cases coded with
    | plain => exact after?_append ": " text
    | @code code nonempty letters =>
      have closing : Text.Ends isCodeChar (']' :: (": ".toList ++ text)) := ends_cons rfl
      have skipped : skipCode ('[' :: (code ++ ']' :: (": ".toList ++ text))) =
          ": ".toList ++ text := by
        simp only [skipCode, dropWhile_run letters closing, takeWhile_run letters closing]
        simp [nonempty]
      rw [List.cons_append, List.append_assoc, List.singleton_append, skipped]
      exact after?_append ": " text

theorem headline?_eq_some_iff : headline? line = some text ↔ Headline line text := by
  constructor
  · intro found
    obtain ⟨back, begun, further⟩ := Option.bind_eq_some_iff.mp found
    obtain ⟨read, skipped, returned⟩ := Option.bind_eq_some_iff.mp further
    split at returned
    next => cases returned
    next nonempty =>
      cases returned
      obtain ⟨code, coded, rfl⟩ := skipCode_eq_some_iff.mp skipped
      have nonempty : text ≠ [] := by simpa using nonempty
      rcases orElse_eq_some_iff.mp begun with warned | ⟨-, failed⟩
      · exact after?_eq_some_iff.mp warned ▸ .intro (.inl rfl) coded nonempty
      · exact after?_eq_some_iff.mp failed ▸ .intro (.inr rfl) coded nonempty
  · rintro @⟨level, code, _, known, coded, nonempty⟩
    have skipped : after? ": " (skipCode (code ++ (": ".toList ++ text))) = some text :=
      skipCode_eq_some_iff.mpr ⟨code, coded, rfl⟩
    have read := after?_append level (code ++ (": ".toList ++ text))
    have begun : (after? "warning" (level.toList ++ (code ++ (": ".toList ++ text))) <|>
        after? "error" (level.toList ++ (code ++ (": ".toList ++ text)))) =
        some (code ++ (": ".toList ++ text)) := by
      rw [orElse_eq_some_iff]
      rcases known with rfl | rfl
      · exact .inl read
      · exact .inr ⟨rfl, read⟩
    rw [headline?, begun]
    simp only [Option.bind_eq_bind, Option.bind_some, skipped]
    rw [if_neg (by simpa using nonempty)]

section

variable {here : List Char → Option (List Char)} {note : List Char → List Char → Prop} {c : Char}

theorem firstNote_nil : FirstNote note [] name ↔ note [] name := by
  constructor
  · rintro ⟨place, first, noted⟩
    obtain rfl : place = [] := by simpa using first.mem
    exact noted
  · intro noted
    exact ⟨[], .here ⟨name, noted⟩, noted⟩

theorem firstNote_cons : FirstNote note (c :: line) name ↔
    note (c :: line) name ∨ ((∀ name, ¬ note (c :: line) name) ∧ FirstNote note line name) := by
  constructor
  · rintro ⟨place, first, noted⟩
    rcases first_cons_iff.mp first with ⟨-, rfl⟩ | ⟨missed, further⟩
    · exact .inl noted
    · exact .inr ⟨not_exists.mp missed, place, further, noted⟩
  · rintro (noted | ⟨missed, place, further, noted⟩)
    · exact ⟨c :: line, .here ⟨name, noted⟩, noted⟩
    · exact ⟨place, .later (not_exists.mpr missed) further, noted⟩

variable (reads : ∀ place name, here place = some name ↔ note place name)
include reads

theorem here_eq_none_iff (place : List Char) :
    here place = none ↔ ∀ name, ¬ note place name := by
  rw [Option.eq_none_iff_forall_ne_some]
  exact forall_congr' fun name => not_congr (reads place name)

/-- A search of a line finds the first note. -/
theorem search_eq_some_iff : search here line = some name ↔ FirstNote note line name := by
  induction line with
  | nil => rw [search, reads, firstNote_nil]
  | cons c line ih =>
    rw [search, orElse_eq_some_iff, reads, here_eq_none_iff reads, ih, firstNote_cons]

theorem search_eq_none_iff :
    search here line = none ↔ ∀ place, place <:+ line → ∀ name, ¬ note place name := by
  induction line with
  | nil => simp [search, here_eq_none_iff reads]
  | cons c line ih =>
    simp [search, here_eq_none_iff reads, ih, List.suffix_cons_iff, or_imp, forall_and]

end

theorem notedName?_eq_some_iff : notedName? line = some name ↔ Noted line name := by
  have flags (place name : List Char) : commandLineHere place = some name ↔ FlagNote place name :=
    commandLineHere_eq_some_iff
  have attributes (place name : List Char) :
      attributeHere place = some name ↔ AttributeNote place name := attributeHere_eq_some_iff
  rw [notedName?, orElse_eq_some_iff, search_eq_some_iff flags, search_eq_none_iff flags,
    search_eq_some_iff attributes]
  constructor
  · rintro (first | ⟨flagless, first⟩)
    · exact .flagged first
    · exact .attributed flagless first
  · intro noted
    cases noted with
    | flagged first => exact .inl first
    | attributed flagless first => exact .inr ⟨flagless, first⟩

end BuildRules.Diagnostic
