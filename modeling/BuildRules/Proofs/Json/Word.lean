import BuildRules.Proofs.Json.Numeral

/-! Numbers are words: runs of characters that end where anything else follows, and are read as
the numbers they were written for. -/
namespace BuildRules.Json

/-- Characters of the documents that are one word. -/
def isWordChar (c : Char) : Bool := c.isAlphanum || c == '-' || c == '+' || c == '.'

/-- What follows a word. -/
def Stops (rest : List Char) : Prop := ∀ c ∈ rest.head?, isWordChar c = false

theorem ne_of_isDigit {c other : Char} (digit : c.isDigit = true) (letter : other.isDigit = false) :
    c ≠ other := by
  rintro rfl
  rw [digit] at letter
  cases letter

theorem value_digit {first : Char} (digit : first.isDigit = true) (fuel : Nat) (rest : List Char) :
    value (fuel + 1) (first :: rest) = number false (first :: rest) := by
  have unnamed : named? (first :: rest) = none := by
    simp [named?, names, after?, (ne_of_isDigit digit rfl : first ≠ 'n').symm,
      (ne_of_isDigit digit rfl : first ≠ 't').symm, (ne_of_isDigit digit rfl : first ≠ 'f').symm,
      (ne_of_isDigit digit rfl : first ≠ 'N').symm, (ne_of_isDigit digit rfl : first ≠ 'I').symm,
      (ne_of_isDigit digit rfl : first ≠ '-').symm]
  have other {c : Char} (letter : c.isDigit = false) (tail : List Char) :
      first :: rest = c :: tail → False :=
    fun shape => absurd (List.cons.inj shape).1 (ne_of_isDigit digit letter)
  rw [value, unnamed]
  · exact other rfl
  · exact other rfl
  · exact other rfl
  · exact other rfl

theorem value_minus {first : Char} (digit : first.isDigit = true) (fuel : Nat) (rest : List Char) :
    value (fuel + 1) ('-' :: first :: rest) = number true (first :: rest) := by
  have unnamed : named? ('-' :: first :: rest) = none := by
    simp [named?, names, after?, (ne_of_isDigit digit rfl : first ≠ 'I').symm]
  rw [value, unnamed]

theorem isWordChar_of_isDigit {c : Char} (digit : c.isDigit = true) : isWordChar c = true := by
  simp [isWordChar, Char.isAlphanum, digit]

theorem Whole.head {whole : List Char} (leading : Whole whole) :
    (∃ first rest, whole = first :: rest ∧ first.isDigit = true) ∧
      ∀ c ∈ whole, isWordChar c = true := by
  cases leading with
  | zero => exact ⟨⟨'0', [], rfl, rfl⟩, List.forall_mem_singleton.mpr rfl⟩
  | @digits first more other digit run =>
    refine ⟨⟨first, more, rfl, digit⟩, ?_⟩
    intro c member
    rcases List.mem_cons.mp member with rfl | later
    · exact isWordChar_of_isDigit digit
    · exact isWordChar_of_isDigit (run c later)

theorem isWordChar_fractionText {places : List Char} (digits : ∀ c ∈ places, c.isDigit = true) :
    ∀ c ∈ fractionText places, isWordChar c = true := by
  intro c member
  rw [fractionText] at member
  split at member
  next => cases member
  next =>
    rcases List.mem_cons.mp member with rfl | digit
    · rfl
    · exact isWordChar_of_isDigit (digits c digit)

theorem Figures.head {index : Nat} {text : List Char} (figures : Figures index text) :
    (∃ first rest, text = first :: rest ∧ first.isDigit = true) ∧
      ∀ c ∈ text, isWordChar c = true := by
  cases figures with
  | positional numeral nonempty =>
    obtain ⟨⟨first, rest, shape, digit⟩, letters⟩ := numeral.leading.head
    refine ⟨⟨first, rest ++ fractionText _, by rw [shape]; rfl, digit⟩, ?_⟩
    intro c member
    rcases List.mem_append.mp member with whole | fraction
    · exact letters c whole
    · exact isWordChar_fractionText numeral.digits c fraction
  | @exponential whole places run below numeral nonempty digits =>
    obtain ⟨⟨first, rest, shape, digit⟩, letters⟩ := numeral.leading.head
    refine ⟨⟨first, rest ++ _, by rw [shape]; rfl, digit⟩, ?_⟩
    intro c member
    rcases List.mem_append.mp member with whole | tail
    · exact letters c whole
    · rcases List.mem_append.mp tail with fraction | scale
      · exact isWordChar_fractionText numeral.digits c fraction
      · rcases List.mem_cons.mp scale with rfl | signed
        · rfl
        · rcases List.mem_cons.mp signed with rfl | digit
          · cases below <;> rfl
          · exact isWordChar_of_isDigit (digits c digit)

theorem whole_toDigits (value : Nat) : Whole (Nat.toDigits 10 value) := by
  by_cases zero : value = 0
  · rw [zero, Nat.toDigits_zero]
    exact .zero
  · obtain ⟨first, rest, shape, other⟩ := Decimal.head_toDigits zero
    have digits : ∀ c ∈ first :: rest, c.isDigit = true := by
      rw [← shape]
      intro c member
      exact Nat.isDigit_of_mem_toDigits (by decide) (by decide) member
    obtain ⟨digit, run⟩ := List.forall_mem_cons.mp digits
    rw [shape]
    exact .digits other digit run

/-- A sign and a text that begins with a digit. -/
structure Signed (negative : Bool) (text word : List Char) : Prop where
  spelled : word = if negative then '-' :: text else text
  head : ∃ first rest, text = first :: rest ∧ first.isDigit = true
  letters : ∀ c ∈ text, isWordChar c = true

theorem Signed.word {negative : Bool} {text word : List Char} (signed : Signed negative text word) :
    word ≠ [] ∧ ∀ c ∈ word, isWordChar c = true := by
  obtain ⟨first, rest, rfl, -⟩ := signed.head
  rw [signed.spelled]
  cases negative with
  | false => exact ⟨List.cons_ne_nil _ _, signed.letters⟩
  | true =>
    refine ⟨List.cons_ne_nil _ _, ?_⟩
    intro c member
    rcases List.mem_cons.mp member with rfl | later
    · rfl
    · exact signed.letters c later

theorem Signed.read {negative : Bool} {text word : List Char} (signed : Signed negative text word)
    (fuel : Nat) (rest : List Char) :
    value (fuel + 1) (word ++ rest) = number negative (text ++ rest) := by
  obtain ⟨first, more, rfl, digit⟩ := signed.head
  rw [signed.spelled]
  cases negative with
  | false => exact value_digit digit fuel (more ++ rest)
  | true => exact value_minus digit fuel (more ++ rest)

theorem signed_int (value : Int) :
    Signed (decide (value < 0)) (Nat.toDigits 10 value.natAbs) (toString value).toList := by
  have whole := (whole_toDigits value.natAbs).head
  refine ⟨?_, whole.1, whole.2⟩
  rw [Int.toString_eq_repr, Int.repr_eq_if]
  by_cases below : value < 0
  · have magnitude : (-value).toNat = value.natAbs := by omega
    have above : ¬ 0 ≤ value := by omega
    rw [if_neg above, magnitude]
    simp [below]
  · have magnitude : value.toNat = value.natAbs := by omega
    have above : 0 ≤ value := by omega
    rw [if_pos above, magnitude]
    simp [below]

theorem signed_float (negative : Bool) (index : Fin Binary64.finiteCount) :
    Signed negative ((Decimal.shortest index).write .json)
      ((Binary64.finite negative index).write .json).toList := by
  have figures := (figures_write (Decimal.shortest_reads index) .json).head
  refine ⟨?_, figures.1, figures.2⟩
  rw [Binary64.write]
  cases negative with
  | false => simp
  | true => simp

theorem Stops.halts {rest : List Char} (stops : Stops rest) : Halts rest := by
  intro c member
  have other := stops c member
  refine ⟨?_, ?_, ?_, ?_⟩
  · by_contra digit
    rw [isWordChar_of_isDigit (by simpa using digit)] at other
    cases other
  all_goals
    rintro rfl
    cases other

theorem value_int {value : Int} (short : Number.isShort value = true) (fuel : Nat)
    {rest : List Char} (stops : Stops rest) :
    Json.value (fuel + 1) ((toString value).toList ++ rest) = .ok (.int value short, rest) := by
  have digits : ∀ c ∈ ([] : List Char), c.isDigit = true := by simp
  have read := number_parts (decide (value < 0)) (whole_toDigits value.natAbs) digits
    stops.halts.breaks (fun _ c member => (stops.halts c member).2.1)
  have magnitude : signed (decide (value < 0)) (decimalValue (Nat.toDigits 10 value.natAbs)) =
      value := by
    rw [decimalValue_toDigits, signed]
    by_cases below : value < 0
    · rw [decide_eq_true below, if_pos rfl]
      omega
    · rw [decide_eq_false below, if_neg Bool.false_ne_true]
      omega
  rw [(signed_int value).read fuel]
  simp only [fractionText, List.isEmpty_nil, if_true, List.nil_append,
    exponent?_none stops.halts, magnitude, short, dif_pos] at read
  exact read

theorem value_float (value : Binary64) (fuel : Nat) {rest : List Char} (stops : Stops rest) :
    Json.value (fuel + 1) ((value.write .json).toList ++ rest) = .ok (.float value, rest) := by
  cases value with
  | nan => rfl
  | infinity negative => cases negative <;> rfl
  | finite negative index =>
    rw [(signed_float negative index).read fuel, number_shortest index .json negative stops.halts]

end BuildRules.Json
