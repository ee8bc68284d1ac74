import BuildRules.Proofs.Toml.Array
import BuildRules.Proofs.Toml.SimpleKey

/-! What a text in quotes has been read from: each character stands for itself or comes of an
escape, which is longer. A text without quotes, backslashes and controls stands for itself. -/
namespace BuildRules.Toml

variable {chars rest : List Char} {c : Char}

theorem isSome_hexValue? {digits : List Char} {value code : Nat}
    (read : digits.foldlM (fun value c => (Json.hexValue? c).map (16 * value + ·)) value =
      some code) : ∀ c ∈ digits, (Json.hexValue? c).isSome := by
  induction digits generalizing value with
  | nil => exact List.forall_mem_nil _
  | cons digit digits ih =>
    rw [List.foldlM_cons] at read
    obtain ⟨next, first, later⟩ := Option.bind_eq_some_iff.mp read
    obtain ⟨worth, known, -⟩ := Option.map_eq_some_iff.mp first
    exact List.forall_mem_cons.mpr ⟨by rw [known]; rfl, ih later⟩

/-- An escape takes at least one character, and no equals sign. -/
def EscapeCode (code : List Char) : Prop := code ≠ [] ∧ '=' ∉ code

theorem escapeCode_of_hexDigits? {first : Char} {digits : List Char} {code : Nat}
    (other : first ≠ '=') (read : Json.hexDigits? digits = some code) :
    EscapeCode (first :: digits) := by
  refine ⟨List.cons_ne_nil _ _, List.not_mem_cons_of_ne_of_not_mem (Ne.symm other) ?_⟩
  intro member
  exact absurd (isSome_hexValue? read _ member) (by decide)

theorem escapeCode_marks : ∀ pair ∈ marks, EscapeCode [pair.1] := by
  intro pair member
  have other : ∀ pair ∈ marks, pair.1 ≠ '=' := by decide
  exact ⟨List.cons_ne_nil _ _, by simpa using Ne.symm (other pair member)⟩

/-- What stands between the quotes, and the text that it stands for, whatever an escape may code. -/
inductive Decodes : List Char → List Char → Prop where
  | nil : Decodes [] []
  | plain {c : Char} {raw text : List Char} (quote : c ≠ '\x22') (backslash : c ≠ '\\')
      (visible : isPlain c = true) (rest : Decodes raw text) : Decodes (c :: raw) (c :: text)
  | escape {c : Char} {code raw text : List Char} (escaped : EscapeCode code)
      (rest : Decodes raw text) : Decodes ('\\' :: code ++ raw) (c :: text)

theorem Stands.decodes {raw text : List Char} (stands : Stands raw text) : Decodes raw text := by
  induction stands with
  | nil => exact .nil
  | cons first later ih =>
    cases first with
    | itself quote backslash visible => exact .plain quote backslash visible ih
    | mark listed => exact .escape (escapeCode_marks _ listed) ih
    | short count code => exact .escape (escapeCode_of_hexDigits? (by decide) code) ih
    | long count code => exact .escape (escapeCode_of_hexDigits? (by decide) code) ih

theorem textBody_eq_some {fuel : Nat} {written : List Char} {text : String}
    (read : textBody fuel written chars = some (text, rest)) :
    ∃ raw decoded, chars = raw ++ '\x22' :: rest ∧ Decodes raw decoded ∧
      text = String.ofList (written.reverse ++ decoded) := by
  obtain ⟨raw, decoded, whole, stands, same⟩ := stands_of_textBody read
  exact ⟨raw, decoded, whole, stands.decodes, same⟩

namespace Decodes

variable {raw text : List Char}

theorem length_le (decodes : Decodes raw text) : text.length ≤ raw.length := by
  induction decodes with
  | nil => exact Nat.le_refl 0
  | plain => exact Nat.succ_le_succ ‹_›
  | escape escaped rest ih =>
    simp only [List.cons_append, List.length_cons, List.length_append]
    omega

/-- Every equals sign stands for itself. -/
theorem count_le (decodes : Decodes raw text) : raw.count '=' ≤ text.count '=' := by
  induction decodes with
  | nil => exact Nat.le_refl 0
  | plain quote backslash visible rest ih =>
    rw [List.count_cons, List.count_cons]
    exact Nat.add_le_add_right ih _
  | @escape c code raw text escaped rest ih =>
    have none : ('\\' :: code).count '=' = 0 :=
      List.count_eq_zero.mpr (List.not_mem_cons_of_ne_of_not_mem (by decide) escaped.2)
    rw [List.count_append, none, Nat.zero_add]
    exact Nat.le_trans ih List.count_le_count_cons

end Decodes

/-- A text that stands for itself between quotes. -/
def Verbatim (text : List Char) : Prop :=
  ∀ c ∈ text, c ≠ '\x22' ∧ c ≠ '\\' ∧ isPlain c = true

instance (text : List Char) : Decidable (Verbatim text) :=
  List.decidableBAll (fun c : Char => c ≠ '\x22' ∧ c ≠ '\\' ∧ isPlain c = true) text

theorem Verbatim.nameable {name : String} (verbatim : Verbatim name.toList) : Nameable name := by
  constructor
  · intro member
    exact absurd (verbatim _ member).2.2 (by decide)
  · intro last
    exact absurd (verbatim _ (List.mem_of_getLast? last)).2.2 (by decide)

/-- Nothing shorter than the text stands for it, and only the text itself is as long. -/
theorem Decodes.verbatim {raw text : List Char} (decodes : Decodes raw text)
    (short : raw.length ≤ text.length) : raw = text ∧ Verbatim text := by
  induction decodes with
  | nil => exact ⟨rfl, List.forall_mem_nil _⟩
  | plain quote backslash visible rest ih =>
    obtain ⟨rfl, later⟩ := ih (Nat.le_of_succ_le_succ short)
    exact ⟨rfl, List.forall_mem_cons.mpr ⟨⟨quote, backslash, visible⟩, later⟩⟩
  | @escape c code raw text escaped rest ih =>
    have some : 0 < code.length := List.length_pos_iff.mpr escaped.1
    have least := rest.length_le
    simp only [List.cons_append, List.length_cons, List.length_append] at short
    omega

theorem textBody_verbatim {text : List Char} (verbatim : Verbatim text) {fuel : Nat}
    (room : text.length < fuel) (written rest : List Char) :
    textBody fuel written (text ++ '\x22' :: rest) =
      some (String.ofList (written.reverse ++ text), rest) := by
  induction text generalizing fuel written with
  | nil =>
    obtain ⟨fuel, rfl⟩ := Nat.exists_eq_succ_of_ne_zero (Nat.ne_of_gt room)
    rw [List.append_nil]
    rfl
  | cons c text ih =>
    obtain ⟨fuel, rfl⟩ := Nat.exists_eq_succ_of_ne_zero (Nat.ne_of_gt (Nat.zero_lt_of_lt room))
    obtain ⟨⟨quote, backslash, visible⟩, later⟩ := List.forall_mem_cons.mp verbatim
    rw [List.cons_append, textBody, if_neg (by simpa using quote), if_neg (by simpa using backslash),
      if_pos visible, ih later (Nat.lt_of_succ_lt_succ room)]
    simp

/-- A text that is put between quotes as it is comes back if it stands for itself. -/
theorem readsItem_verbatim {text : String} (verbatim : Verbatim text.toList) :
    ReadsItem ('\x22' :: (text.toList ++ ['\x22'])) (.text text) := by
  intro fuel rest room
  obtain ⟨fuel, rfl⟩ := Nat.exists_eq_add_one_of_ne_zero (Nat.ne_of_gt (Nat.zero_lt_of_lt room))
  have enough : text.toList.length < (text.toList ++ '\x22' :: rest).length + 1 := by
    rw [List.length_append]
    omega
  have read := textBody_verbatim verbatim enough [] rest
  rw [List.cons_append, List.append_assoc, List.singleton_append, item?, quoted?, read]
  simp

/-- It does not come back otherwise. -/
theorem verbatim_of_item? {text : String} {fuel : Nat}
    (read : item? fuel ('\x22' :: (text.toList ++ ['\x22'])) = some (.text text, rest)) :
    Verbatim text.toList := by
  cases fuel with
  | zero => cases read
  | succ fuel =>
    obtain ⟨⟨value, after⟩, quoted, found⟩ := Option.map_eq_some_iff.mp read
    obtain ⟨same, -⟩ := Prod.mk.inj found
    obtain rfl : value = text := Item.text.inj same
    obtain ⟨raw, decoded, whole, decodes, same⟩ := textBody_eq_some quoted
    obtain rfl : value.toList = decoded := by simp [same]
    have fits := congrArg List.length whole
    rw [List.length_append, List.length_append, List.length_singleton, List.length_cons] at fits
    exact (decodes.verbatim (by omega)).2

theorem simpleKey?_of_keyPath? {fuel : Nat} {name : String} {names : List String}
    (read : keyPath? fuel chars = some (name :: names, rest)) :
    ∃ after, simpleKey? chars = some (name, after) := by
  cases fuel with
  | zero => cases read
  | succ fuel =>
    obtain ⟨⟨first, after⟩, key, read⟩ := Option.bind_eq_some_iff.mp read
    dsimp only at read
    split at read
    next =>
      obtain ⟨later, -, read⟩ := Option.bind_eq_some_iff.mp read
      cases read
      exact ⟨after, key⟩
    next =>
      cases read
      exact ⟨after, key⟩

/-- Quotes that open before a text and close behind an equals sign that follows it do not stand for
the text. -/
theorem Decodes.ne_over_equals {raw text gap front back : List Char} (decodes : Decodes raw text)
    (equals : '=' ∈ front) (quote : '\x22' ∉ front) (blank : '=' ∉ gap) :
    gap ++ '\x22' :: (raw ++ '\x22' :: rest) ≠ text ++ (front ++ '\x22' :: back) := by
  intro whole
  have whole : (gap ++ '\x22' :: raw) ++ '\x22' :: rest = (text ++ front) ++ '\x22' :: back := by
    simpa using whole
  -- the closing quote stands behind the equals sign, since the raw text is not shorter
  obtain ⟨within, longer⟩ : ∃ within, gap ++ '\x22' :: raw = text ++ front ++ within := by
    rcases List.append_eq_append_iff.mp whole with ⟨within, short, closing⟩ | ⟨within, longer, -⟩
    · cases within with
      | nil => exact ⟨[], by rw [List.append_nil, short, List.append_nil]⟩
      | cons c within =>
        obtain ⟨rfl, -⟩ := List.cons.inj closing
        have least := decodes.length_le
        rcases List.append_eq_append_iff.mp short with ⟨inner, -, held⟩ | ⟨inner, shorter, -⟩
        · exact absurd (by simp [held]) quote
        · have lengths := congrArg List.length shorter
          simp only [List.length_append, List.length_cons] at lengths
          omega
    · exact ⟨within, longer⟩
  have none : gap.count '=' = 0 := List.count_eq_zero.mpr blank
  have some : 0 < front.count '=' := List.count_pos_iff.mpr equals
  have counts := congrArg (List.count '=') longer
  rw [List.count_append, List.count_append, List.count_append,
    List.count_cons_of_ne (by decide)] at counts
  have least := decodes.count_le
  omega

/-- A name that is put in front of an equals sign as it is comes back only if it is bare. -/
theorem bareKey_of_simpleKey? {name : String} {front back : List Char} (equals : '=' ∈ front)
    (quote : '\x22' ∉ front)
    (read : simpleKey? (skipBlank (name.toList ++ (front ++ '\x22' :: back))) =
      some (name, rest)) : BareKey name := by
  generalize shape : skipBlank (name.toList ++ (front ++ '\x22' :: back)) = chars at read
  rw [simpleKey?.eq_def] at read
  split at read
  next _ raw =>
    obtain ⟨raw, decoded, rfl, decodes, same⟩ := textBody_eq_some read
    obtain rfl : name.toList = decoded := by simp [same]
    have blank : '=' ∉ (name.toList ++ (front ++ '\x22' :: back)).takeWhile isBlank := fun member =>
      absurd (List.mem_takeWhile_imp member) (by decide)
    have whole := List.takeWhile_append_dropWhile (p := isBlank)
      (l := name.toList ++ (front ++ '\x22' :: back))
    rw [← skipBlank, shape] at whole
    exact absurd whole (decodes.ne_over_equals equals quote blank)
  next =>
    dsimp only at read
    split at read
    next => cases read
    next some =>
      obtain ⟨rfl, -⟩ := Prod.mk.inj (Option.some.inj read)
      rw [BareKey, String.toList_ofList]
      exact ⟨by simpa using some, fun c member => List.mem_takeWhile_imp member⟩

end BuildRules.Toml
