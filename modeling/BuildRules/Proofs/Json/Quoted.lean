import BuildRules.Json.Parse
import Mathlib.Tactic.SplitIfs

namespace BuildRules.Json

theorem hexDigits_control : ∀ code < 32, (Text.hexDigits 4 code).length = 4 ∧
    hexDigits? (Text.hexDigits 4 code) = some code := by decide

theorem unicodeEscape_control {c : Char} (control : c.toNat < 32) (rest : List Char) :
    unicodeEscape (Text.hexDigits 4 c.toNat ++ rest) = .ok (c, rest) := by
  obtain ⟨length, value⟩ := hexDigits_control c.toNat control
  match digits : Text.hexDigits 4 c.toNat, length with
  | [first, second, third, fourth], _ =>
    rw [digits] at value
    have unit : codeUnit? ([first, second, third, fourth] ++ rest) = some (c.toNat, rest) := by
      simp [codeUnit?, value]
    have low : ¬ (0xD800 ≤ c.toNat ∧ c.toNat < 0xDC00) := by omega
    have lone : ¬ (0xDC00 ≤ c.toNat ∧ c.toNat < 0xE000) := by omega
    rw [unicodeEscape, unit]
    simp only [if_neg low, if_neg lone, Char.ofNat_toNat]

/-- What stands behind a backslash, and the character that it stands for. -/
def shortEscapes : List (Char × Char) :=
  [('\x22', '\x22'), ('\\', '\\'), ('n', '\n'), ('r', '\r'), ('t', '\t'), ('f', '\x0c'),
    ('b', '\x08')]

/-- How a character is written: by a mark or a code behind a backslash, or as it is. -/
inductive Escaped (c : Char) : List Char → Prop where
  | short {mark : Char} (listed : (mark, c) ∈ shortEscapes) : Escaped c ['\\', mark]
  | coded (control : c.toNat < 32) : Escaped c ('\\' :: 'u' :: Text.hexDigits 4 c.toNat)
  | plain (quote : c ≠ '\x22') (backslash : c ≠ '\\') (visible : 32 ≤ c.toNat) : Escaped c [c]

theorem escaped_escapeChar (c : Char) : Escaped c (escapeChar c) := by
  rw [escapeChar]
  split_ifs with mark line back tab feed space control
  · rcases Bool.or_eq_true_iff.mp mark with quote | backslash
    · obtain rfl := eq_of_beq quote
      exact .short (by simp [shortEscapes])
    · obtain rfl := eq_of_beq backslash
      exact .short (by simp [shortEscapes])
  · obtain rfl := eq_of_beq line
    exact .short (by simp [shortEscapes])
  · obtain rfl := eq_of_beq back
    exact .short (by simp [shortEscapes])
  · obtain rfl := eq_of_beq tab
    exact .short (by simp [shortEscapes])
  · obtain rfl := eq_of_beq feed
    exact .short (by simp [shortEscapes])
  · obtain rfl := eq_of_beq space
    exact .short (by simp [shortEscapes])
  · exact .coded control
  · simp only [Bool.or_eq_true, not_or, beq_iff_eq] at mark
    exact .plain mark.1 mark.2 (Nat.le_of_not_lt control)

theorem length_le_escaped (text : List Char) :
    text.length ≤ (text.flatMap escapeChar).length := by
  induction text with
  | nil => exact Nat.le_refl 0
  | cons c rest ih =>
    have written : 0 < (escapeChar c).length := by
      have escaped := escaped_escapeChar c
      generalize escapeChar c = chars at escaped
      cases escaped <;> exact Nat.succ_pos _
    rw [List.flatMap_cons, List.length_append, List.length_cons]
    omega

theorem quotedChars_append (text rest : List Char) :
    quotedChars text ++ rest = '\x22' :: (text.flatMap escapeChar ++ '\x22' :: rest) := by
  simp [quotedChars]

theorem textBody_short (fuel : Nat) (written rest : List Char) :
    ∀ pair ∈ shortEscapes, textBody (fuel + 1) written ('\\' :: pair.1 :: rest) =
      textBody fuel (pair.2 :: written) rest := by
  simp only [shortEscapes, List.forall_mem_cons]
  exact ⟨rfl, rfl, rfl, rfl, rfl, rfl, rfl, List.forall_mem_nil _⟩

theorem textBody_escapeChar (fuel : Nat) (written : List Char) (c : Char) (rest : List Char) :
    textBody (fuel + 1) written (escapeChar c ++ rest) = textBody fuel (c :: written) rest := by
  have escaped := escaped_escapeChar c
  generalize escapeChar c = chars at escaped
  cases escaped with
  | short listed => exact textBody_short fuel written rest _ listed
  | coded control =>
    rw [List.cons_append, List.cons_append, textBody.eq_def]
    simp [unicodeEscape_control control]
  | plain quote backslash visible =>
    rw [List.singleton_append, textBody.eq_def]
    simp [quote, backslash, Nat.not_lt.mpr visible]

theorem textBody_quoted {chars : List Char} {fuel : Nat} (room : chars.length < fuel)
    (written rest : List Char) :
    textBody fuel written (chars.flatMap escapeChar ++ '\x22' :: rest) =
      .ok (String.ofList (written.reverse ++ chars), rest) := by
  induction chars generalizing fuel written with
  | nil =>
    obtain ⟨fuel, rfl⟩ := Nat.exists_eq_succ_of_ne_zero (Nat.ne_of_gt room)
    rw [List.append_nil]
    rfl
  | cons c chars ih =>
    obtain ⟨fuel, rfl⟩ := Nat.exists_eq_succ_of_ne_zero (Nat.ne_of_gt (Nat.zero_lt_of_lt room))
    have shorter : chars.length < fuel := Nat.lt_of_succ_lt_succ room
    rw [List.flatMap_cons, List.append_assoc, textBody_escapeChar, ih shorter, List.reverse_cons,
      List.append_assoc]
    rfl

end BuildRules.Json
