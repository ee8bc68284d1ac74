import BuildRules.Text.Blank

/-! The lines of two texts with a line feed between them are those of the first and then those of
the second. Where the first is empty or has ended its last line, an empty line may stand between
them; a carriage return at its end takes the line feed to itself. -/
namespace BuildRules.Text

variable {c : Char} {rest : List Char}

/-- A character that ends no line together with the next one. -/
theorem linesFrom_cons (line : List Char)
    (single : ∀ tail, c = '\r' → rest = '\n' :: tail → False) :
    linesFrom line (c :: rest) =
      if isLineEnd c then line.reverse :: linesFrom [] rest else linesFrom (c :: line) rest := by
  rw [linesFrom]
  exact single

theorem linesFrom_lineFeed (line rest : List Char) :
    linesFrom line ('\n' :: rest) = line.reverse :: linesFrom [] rest := by
  have ends : isLineEnd '\n' = true := by decide
  rw [linesFrom_cons line (by simp), if_pos ends]

/-- Whatever ends the first text, no line is split and none is merged with the next. -/
theorem linesFrom_append_lineFeed (line chars rest : List Char) :
    ∃ gap, (∀ between ∈ gap, between = []) ∧
      linesFrom line (chars ++ '\n' :: rest) =
        linesFrom line chars ++ gap ++ linesFrom [] rest := by
  fun_induction linesFrom line chars with
  | case1 line begun =>
    obtain rfl := List.isEmpty_iff.mp begun
    exact ⟨[[]], by simp, linesFrom_lineFeed [] rest⟩
  | case2 line _ => exact ⟨[], by simp, linesFrom_lineFeed line rest⟩
  | case3 line chars ih =>
    obtain ⟨gap, empty, whole⟩ := ih
    refine ⟨gap, empty, ?_⟩
    rw [List.cons_append, List.cons_append, linesFrom, whole]
    rfl
  | case4 line c chars single ends ih =>
    cases chars with
    | nil =>
      -- at the seam a carriage return takes the line feed in; any other end leaves an empty line
      by_cases returned : c = '\r'
      · subst returned
        exact ⟨[], by simp, by simp [linesFrom]⟩
      · refine ⟨[[]], by simp, ?_⟩
        rw [List.singleton_append, linesFrom_cons line fun _ same _ => returned same, if_pos ends,
          linesFrom_lineFeed]
        rfl
    | cons next chars =>
      obtain ⟨gap, empty, whole⟩ := ih
      refine ⟨gap, empty, ?_⟩
      have apart : ∀ tail, c = '\r' → next :: (chars ++ '\n' :: rest) = '\n' :: tail → False := by
        intro tail returned same
        exact single chars returned (by rw [(List.cons.inj same).1])
      rw [List.cons_append, List.cons_append, linesFrom_cons line apart, if_pos ends,
        ← List.cons_append, whole]
      rfl
  | case5 line c chars single inside ih =>
    obtain ⟨gap, empty, whole⟩ := ih
    refine ⟨gap, empty, ?_⟩
    have apart : ∀ tail, c = '\r' → chars ++ '\n' :: rest = '\n' :: tail → False := by
      rintro _ rfl
      exact absurd rfl inside
    rw [List.cons_append, linesFrom_cons line apart, if_neg inside, whole]

theorem lines_joined (front back : List Char) :
    ∃ gap, (∀ between ∈ gap, between = []) ∧
      linesOfChars (front ++ '\n' :: back) = linesOfChars front ++ gap ++ linesOfChars back :=
  linesFrom_append_lineFeed [] front back

end BuildRules.Text
