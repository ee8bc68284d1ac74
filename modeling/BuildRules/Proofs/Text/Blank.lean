import BuildRules.Text.Blank
import BuildRules.Proofs.Text.Boundary

namespace BuildRules.Text

theorem mem_wordsFrom {word chars found : List Char} (begun : ∀ c ∈ word, isBlank c = false)
    (member : found ∈ wordsFrom word chars) : found ≠ [] ∧ ∀ c ∈ found, isBlank c = false := by
  have whole : word ≠ [] → word.reverse ≠ [] ∧ ∀ c ∈ word.reverse, isBlank c = false := by
    intro nonempty
    refine ⟨by simpa using nonempty, ?_⟩
    intro c present
    exact begun c (List.mem_reverse.mp present)
  induction chars generalizing word with
  | nil =>
    by_cases empty : word = []
    · simp [wordsFrom, empty] at member
    · have same : found = word.reverse := by simpa [wordsFrom, empty] using member
      exact same ▸ whole empty
  | cons c rest ih =>
    have fresh : found ∈ wordsFrom [] rest → found ≠ [] ∧ ∀ d ∈ found, isBlank d = false :=
      fun later => ih (by simp) later (by simp)
    rw [wordsFrom] at member
    by_cases blank : isBlank c = true
    · rw [if_pos blank] at member
      by_cases empty : word = []
      · exact fresh (by simpa [empty] using member)
      · rcases (by simpa [empty] using member : found = word.reverse ∨ found ∈ wordsFrom [] rest)
          with same | later
        · exact same ▸ whole empty
        · exact fresh later
    · rw [if_neg blank] at member
      have extended : ∀ d ∈ c :: word, isBlank d = false :=
        List.forall_mem_cons.mpr ⟨by simpa using blank, begun⟩
      apply ih extended member
      intro _
      refine ⟨by simp, ?_⟩
      intro d present
      exact extended d (List.mem_reverse.mp present)

theorem mem_words {text word : String} (member : word ∈ words text) :
    word ≠ "" ∧ ∀ c ∈ word.toList, isBlank c = false := by
  obtain ⟨chars, present, rfl⟩ := List.mem_map.mp member
  obtain ⟨nonempty, unblanked⟩ := mem_wordsFrom (by simp) present
  constructor
  · intro empty
    apply nonempty
    simpa using congrArg String.toList empty
  · simpa using unblanked

/-- No white space anywhere. -/
def Unbroken (text : String) : Prop := ∀ c ∈ text.toList, isBlank c = false

theorem unbroken_append {front back : String} :
    Unbroken (front ++ back) ↔ Unbroken front ∧ Unbroken back := by
  simp only [Unbroken, String.toList_append, List.forall_mem_append]

/-- A run without white space goes on with the word in progress. -/
theorem wordsFrom_run {run : List Char} (unbroken : ∀ c ∈ run, isBlank c = false)
    (word rest : List Char) :
    wordsFrom word (run ++ rest) = wordsFrom (run.reverse ++ word) rest := by
  induction run generalizing word with
  | nil => rfl
  | cons c run ih =>
    obtain ⟨letter, unbroken⟩ := List.forall_mem_cons.mp unbroken
    rw [List.cons_append, wordsFrom, if_neg (by simp [letter]), ih unbroken]
    simp

theorem wordsFrom_intercalate {runs : List (List Char)}
    (each : ∀ run ∈ runs, run ≠ [] ∧ ∀ c ∈ run, isBlank c = false) :
    wordsFrom [] ([' '].intercalate runs) = runs := by
  induction runs with
  | nil => rfl
  | cons run rest ih =>
    obtain ⟨⟨nonempty, unbroken⟩, each⟩ := List.forall_mem_cons.mp each
    cases rest with
    | nil =>
      have whole := wordsFrom_run unbroken [] []
      rw [List.append_nil, List.append_nil] at whole
      rw [List.intercalate_singleton, whole]
      simp [wordsFrom, nonempty]
    | cons next rest =>
      have blank : isBlank ' ' = true := by decide
      rw [List.intercalate_cons_cons, List.append_assoc, wordsFrom_run unbroken,
        List.singleton_append, wordsFrom, if_pos blank, ih each]
      simp [nonempty]

/-- Words that are joined by spaces are told apart again. -/
theorem words_intercalate {texts : List String}
    (each : ∀ text ∈ texts, text ≠ "" ∧ Unbroken text) :
    words (" ".intercalate texts) = texts := by
  have runs : ∀ run ∈ texts.map String.toList, run ≠ [] ∧ ∀ c ∈ run, isBlank c = false := by
    intro run member
    obtain ⟨text, present, rfl⟩ := List.mem_map.mp member
    obtain ⟨nonempty, unbroken⟩ := each text present
    exact ⟨by simpa using nonempty, unbroken⟩
  rw [words, wordsOfChars, String.toList_intercalate]
  exact (congrArg _ (wordsFrom_intercalate runs)).trans (by simp)

theorem trimChars_ne_nil {chars : List Char} (visible : ∃ c ∈ chars, isBlank c = false) :
    trimChars chars ≠ [] := by
  obtain ⟨c, member, letter⟩ := visible
  intro empty
  have blank : ∀ d ∈ chars.dropWhile isBlank, isBlank d = true := by
    simpa [trimChars, List.dropWhile_eq_nil_iff] using empty
  cases front : chars.dropWhile isBlank with
  | nil =>
    have all := List.dropWhile_eq_nil_iff.mp front c member
    rw [letter] at all
    cases all
  | cons d rest =>
    have stopped := List.head?_dropWhile_not isBlank chars
    rw [front] at stopped blank
    simp [blank d List.mem_cons_self] at stopped

theorem trim_ne_empty {text : String} (visible : isBlankText text = false) : trim text ≠ "" := by
  have letter : ∃ c ∈ text.toList, isBlank c = false := by
    simpa [isBlankText] using visible
  intro empty
  apply trimChars_ne_nil letter
  simpa [trim] using congrArg String.toList empty

/-- Neither empty nor with white space at an end. -/
structure Stripped (text : String) : Prop where
  nonempty : text ≠ ""
  first : ∀ c ∈ text.toList.head?, isBlank c = false
  last : ∀ c ∈ text.toList.getLast?, isBlank c = false

theorem head_dropWhile (chars : List Char) :
    ∀ c ∈ (chars.dropWhile isBlank).head?, isBlank c = false := by
  intro c member
  have stopped := List.head?_dropWhile_not isBlank chars
  rw [Option.mem_def.mp member] at stopped
  simpa using stopped

theorem stripped_trim {text : String} (visible : isBlankText text = false) :
    Stripped (trim text) := by
  refine ⟨trim_ne_empty visible, ?_, ?_⟩
  · intro c member
    -- what is trimmed begins what is left once the front is dropped
    have begins : trimChars text.toList <+: text.toList.dropWhile isBlank := by
      have ends := List.dropWhile_suffix isBlank (l := (text.toList.dropWhile isBlank).reverse)
      simpa [trimChars] using List.reverse_prefix.mpr ends
    obtain ⟨rest, whole⟩ := begins
    have first : (trimChars text.toList).head? = some c := by simpa [trim] using member
    apply head_dropWhile text.toList
    rw [← whole, List.head?_append, first]
    rfl
  · intro c member
    apply head_dropWhile (text.toList.dropWhile isBlank).reverse
    simpa [trim, trimChars] using member

theorem stripped_of_word {text word : String} (member : word ∈ words text) : Stripped word := by
  obtain ⟨nonempty, letters⟩ := mem_words member
  refine ⟨nonempty, ?_, ?_⟩
  · intro c first
    exact letters c (List.mem_of_mem_head? first)
  · intro c last
    exact letters c (List.mem_of_getLast? last)

end BuildRules.Text
