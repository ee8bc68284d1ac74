import BuildRules.Proofs.Toml.BasicString

/-! A text in quotes is a basic string that stands for it, and is read back up to its closing quote.
The escapes leave the delete character as it is, which no basic string may hold. -/
namespace BuildRules.Toml

theorem spells_short : ∀ pair ∈ Json.shortEscapes, Spells ['\\', pair.1] pair.2 := by
  have listed : ∀ pair ∈ Json.shortEscapes, pair ∈ marks := by decide
  exact fun pair member => .mark (listed pair member)

/-- The escapes spell every character but one. -/
theorem spells_escapeChar {c : Char} (kept : c ≠ '\x7f') : Spells (Json.escapeChar c) c := by
  have escaped := Json.escaped_escapeChar c
  generalize Json.escapeChar c = chars at escaped
  cases escaped with
  | short listed => exact spells_short _ listed
  | coded control =>
    obtain ⟨length, value⟩ := Json.hexDigits_control c.toNat control
    exact .short length value
  | plain quote backslash visible =>
    have printed : isPlain c = true := by
      have code : c.toNat ≠ 127 := fun same => kept (Char.toNat_inj.mp same)
      simp [isPlain, code, visible]
    exact .itself quote backslash printed

theorem stands_escaped {chars : List Char} (kept : '\x7f' ∉ chars) :
    Stands (chars.flatMap Json.escapeChar) chars := by
  induction chars with
  | nil => exact .nil
  | cons c chars ih =>
    obtain ⟨other, kept⟩ := List.ne_and_not_mem_of_not_mem_cons kept
    exact .cons (spells_escapeChar (Ne.symm other)) (ih kept)

/-- The reader stops at a delete character, which stands for nothing. -/
theorem textBody_delete {chars : List Char} (member : '\x7f' ∈ chars) (fuel : Nat)
    (before rest : List Char) :
    textBody fuel before (chars.flatMap Json.escapeChar ++ rest) = none := by
  induction chars generalizing fuel before with
  | nil => cases member
  | cons c chars ih =>
    cases fuel with
    | zero => rfl
    | succ fuel =>
      by_cases same : c = '\x7f'
      · subst same
        rfl
      · have later : '\x7f' ∈ chars := List.mem_of_ne_of_mem (Ne.symm same) member
        rw [List.flatMap_cons, List.append_assoc, textBody_spells (spells_escapeChar same)]
        exact ih later fuel _

theorem quoted_append (text : String) (rest : List Char) :
    (Json.quoted text).toList ++ rest =
      '\x22' :: (text.toList.flatMap Json.escapeChar ++ '\x22' :: rest) := by
  rw [Json.quoted, String.toList_ofList, Json.quotedChars_append]

theorem quoted?_quoted {text : String} (kept : '\x7f' ∉ text.toList) (rest : List Char) :
    quoted? ((Json.quoted text).toList ++ rest) = some (text, rest) :=
  quoted?_eq_some_iff.mpr ⟨_, quoted_append text rest, stands_escaped kept⟩

theorem quoted?_delete {text : String} (member : '\x7f' ∈ text.toList) (rest : List Char) :
    quoted? ((Json.quoted text).toList ++ rest) = none := by
  rw [quoted_append, quoted?]
  exact textBody_delete member _ _ _

theorem quoted?_basicString {written value : String} :
    BasicString written value ↔ quoted? written.toList = some (value, []) :=
  quoted?_eq_some_iff.symm

/-- What a text in quotes stands for is the text, if it stands for anything. -/
theorem basicString_quoted_iff {text value : String} :
    BasicString (Json.quoted text) value ↔ value = text ∧ '\x7f' ∉ text.toList := by
  rw [quoted?_basicString]
  by_cases member : '\x7f' ∈ text.toList
  · have none := quoted?_delete member []
    rw [List.append_nil] at none
    simp [none, member]
  · have read := quoted?_quoted member []
    rw [List.append_nil] at read
    simp [read, member, eq_comm]

/-- Quotes and escapes make a basic string that stands for the text and for nothing else, and that
is read as the text, unless the text holds the delete character: then they make none. -/
theorem basicString_quoted (text : String) :
    (∀ value, BasicString (Json.quoted text) value ↔ value = text ∧ '\x7f' ∉ text.toList) ∧
      quoted? (Json.quoted text).toList =
        if '\x7f' ∈ text.toList then none else some (text, []) := by
  refine ⟨fun value => basicString_quoted_iff, ?_⟩
  rw [← List.append_nil (Json.quoted text).toList]
  split
  next member => exact quoted?_delete member []
  next kept => exact quoted?_quoted kept []

/-- The delete character in quotes is no basic string, whatever it were to stand for. -/
theorem delete_no_basicString : ¬ ∃ value, BasicString (Json.quoted "\x7f") value := by
  rintro ⟨value, stands⟩
  exact (basicString_quoted_iff.mp stands).2 (by decide)

/-- Neither a control of the first 32 nor the delete character. -/
def ControlFree (text : String) : Prop := ∀ c ∈ text.toList, 32 ≤ c.toNat ∧ c ≠ '\x7f'

instance (text : String) : Decidable (ControlFree text) :=
  List.decidableBAll (fun c : Char => 32 ≤ c.toNat ∧ c ≠ '\x7f') text.toList

theorem ControlFree.kept {text : String} (free : ControlFree text) : '\x7f' ∉ text.toList :=
  fun member => (free _ member).2 rfl

end BuildRules.Toml
