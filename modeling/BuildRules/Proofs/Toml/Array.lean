import BuildRules.CargoConfig
import BuildRules.Proofs.Toml.Quoted

namespace BuildRules.Toml

/-- Parts are never more than the characters that separate them, and one. -/
theorem length_le_intercalate {separator : List Char} (nonempty : separator ≠ [])
    (parts : List (List Char)) : parts.length ≤ (separator.intercalate parts).length + 1 := by
  have some : 0 < separator.length := List.length_pos_iff.mpr nonempty
  induction parts with
  | nil => exact Nat.zero_le _
  | cons part parts ih =>
    cases parts with
    | nil => exact Nat.le_add_left 1 _
    | cons next parts =>
      rw [List.intercalate_cons_cons]
      simp only [List.length_append, List.length_cons] at ih ⊢
      omega

/-- What begins with a quote, or with the end of an array. -/
def OpensItem (rest : List Char) : Prop := rest.head? = some '\x22' ∨ rest.head? = some ']'

theorem skipGap_of_opensItem {rest : List Char} (opens : OpensItem rest) (fuel : Nat) :
    skipGap fuel rest = rest := by
  cases fuel with
  | zero => rfl
  | succ fuel =>
    cases rest with
    | nil => simp [OpensItem] at opens
    | cons c rest =>
      rcases opens with quote | bracket
      · obtain rfl := Option.some.inj quote
        rfl
      · obtain rfl := Option.some.inj bracket
        rfl

/-- Spaces and line feeds in front of an item are a gap. -/
theorem skipGap_run {gap rest : List Char} (blank : ∀ c ∈ gap, c = ' ' ∨ c = '\n')
    (opens : OpensItem rest) {fuel : Nat} (room : gap.length < fuel) :
    skipGap fuel (gap ++ rest) = rest := by
  induction gap generalizing fuel with
  | nil => exact skipGap_of_opensItem opens fuel
  | cons c gap ih =>
    obtain ⟨fuel, rfl⟩ := Nat.exists_eq_succ_of_ne_zero (Nat.ne_of_gt (Nat.zero_lt_of_lt room))
    have shorter : gap.length < fuel := Nat.lt_of_succ_lt_succ room
    obtain ⟨kind, later⟩ := List.forall_mem_cons.mp blank
    rcases kind with rfl | rfl
    · exact ih later (Nat.lt_succ_of_lt shorter)
    · exact ih later shorter

theorem skipGap_gap {gap rest : List Char} (blank : ∀ c ∈ gap, c = ' ' ∨ c = '\n')
    (opens : OpensItem rest) : skipGap (gap ++ rest).length (gap ++ rest) = rest := by
  apply skipGap_run blank opens
  cases rest with
  | nil => simp [OpensItem] at opens
  | cons c rest => simp

/-- Texts in the order of an array. -/
def texts (values : List String) : Item := .array (values.map .text)

theorem opensItem_quoted (text : String) (rest : List Char) :
    OpensItem ((Json.quoted text).toList ++ rest) := by
  rw [quoted_append]
  exact .inl rfl

section Items

variable {text : String} (free : ControlFree text)

include free

theorem item?_quoted (fuel : Nat) (rest : List Char) :
    item? (fuel + 1) ((Json.quoted text).toList ++ rest) = some (.text text, rest) := by
  have read := quoted?_quoted free.kept rest
  rw [quoted_append] at read ⊢
  rw [item?, read]
  rfl

theorem items?_comma (fuel : Nat) (read : List Item) (more : List Char) :
    items? (fuel + 2) read ((Json.quoted text).toList ++ ',' :: more) =
      items? (fuel + 1) (.text text :: read) (skipGap more.length more) := by
  have found := item?_quoted free fuel (',' :: more)
  rw [quoted_append] at found ⊢
  rw [items?, found]
  · rfl
  · intro after shape
    cases shape

theorem items?_end (fuel : Nat) (read : List Item) (rest : List Char) :
    items? (fuel + 2) read ((Json.quoted text).toList ++ ']' :: rest) =
      some (.array (.text text :: read).reverse, rest) := by
  have found := item?_quoted free fuel (']' :: rest)
  rw [quoted_append] at found ⊢
  rw [items?, found]
  · rfl
  · intro after shape
    cases shape

/-- Behind the comma the next item, or the end, follows a gap. -/
theorem items?_next (fuel : Nat) (read : List Item) {gap rest : List Char}
    (blank : ∀ c ∈ gap, c = ' ' ∨ c = '\n') (opens : OpensItem rest) :
    items? (fuel + 2) read ((Json.quoted text).toList ++ ',' :: (gap ++ rest)) =
      items? (fuel + 1) (.text text :: read) rest := by
  rw [items?_comma free, skipGap_gap blank opens]

end Items

/-- Texts in quotes, with what separates them. -/
def joined (separator : List Char) (values : List String) : List Char :=
  separator.intercalate (values.map fun text => (Json.quoted text).toList)

theorem joined_singleton (separator : List Char) (text : String) :
    joined separator [text] = (Json.quoted text).toList := List.intercalate_singleton

theorem joined_cons_cons (separator : List Char) (text next : String) (values : List String) :
    joined separator (text :: next :: values) =
      (Json.quoted text).toList ++ (separator ++ joined separator (next :: values)) := by
  rw [joined, List.map_cons, List.map_cons, List.intercalate_cons_cons, List.append_assoc]
  rfl

theorem opensItem_joined (separator : List Char) (values : List String) (rest : List Char) :
    OpensItem (joined separator values ++ ']' :: rest) := by
  cases values with
  | nil => exact .inr rfl
  | cons text values =>
    cases values with
    | nil =>
      rw [joined_singleton]
      exact opensItem_quoted text _
    | cons next values =>
      rw [joined_cons_cons, List.append_assoc]
      exact opensItem_quoted text _

/-- The texts of an array on one line are read up to its end. -/
theorem items?_joined {values : List String} (free : ∀ text ∈ values, ControlFree text)
    {fuel : Nat} (room : values.length ≤ fuel) (read : List Item) (rest : List Char) :
    items? (fuel + 1) read (joined [',', ' '] values ++ ']' :: rest) =
      some (.array (read.reverse ++ values.map .text), rest) := by
  induction values generalizing fuel read with
  | nil => simp [joined, items?]
  | cons text values ih =>
    obtain ⟨first, free⟩ := List.forall_mem_cons.mp free
    obtain ⟨fuel, rfl⟩ := Nat.exists_eq_add_one_of_ne_zero (Nat.ne_of_gt (Nat.zero_lt_of_lt room))
    cases values with
    | nil =>
      rw [joined_singleton, items?_end first]
      simp
    | cons next values =>
      have shape : joined [',', ' '] (text :: next :: values) ++ ']' :: rest =
          (Json.quoted text).toList ++
            ',' :: ([' '] ++ (joined [',', ' '] (next :: values) ++ ']' :: rest)) := by
        simp [joined_cons_cons]
      rw [shape, items?_next first fuel read (by simp) (opensItem_joined _ _ _),
        ih free (Nat.le_of_succ_le_succ room)]
      simp

/-- What stands in front of a pair on its own line. -/
def indent : List Char := ['\n', ' ', ' ', ' ', ' ']

/-- Pairs of texts, each on its own line with a comma at its end, up to the bracket. -/
def rows (pairs : List (String × String)) : List Char :=
  pairs.flatMap (fun pair => indent ++ (Json.quoted pair.1).toList ++
    [',', ' '] ++ (Json.quoted pair.2).toList ++ [',']) ++ ['\n', ']']

def both (pair : String × String) : List String := [pair.1, pair.2]

theorem rows_cons (pair : String × String) (pairs : List (String × String)) (rest : List Char) :
    rows (pair :: pairs) ++ rest = indent ++ ((Json.quoted pair.1).toList ++
      ',' :: ([' '] ++ ((Json.quoted pair.2).toList ++ ',' :: (rows pairs ++ rest)))) := by
  simp [rows]

/-- The texts of an array on many lines are read up to its end. -/
theorem items?_rows {pairs : List (String × String)}
    (free : ∀ pair ∈ pairs, ControlFree pair.1 ∧ ControlFree pair.2) {fuel : Nat}
    (room : 2 * pairs.length < fuel) (read : List Item) (rest : List Char) :
    items? fuel read (skipGap (rows pairs ++ rest).length (rows pairs ++ rest)) =
      some (.array (read.reverse ++ (pairs.flatMap both).map .text), rest) := by
  induction pairs generalizing fuel read with
  | nil =>
    obtain ⟨fuel, rfl⟩ := Nat.exists_eq_add_one_of_ne_zero (Nat.ne_of_gt room)
    have blank : ∀ c ∈ ['\n'], c = ' ' ∨ c = '\n' := List.forall_mem_singleton.mpr (.inr rfl)
    have close : skipGap (rows [] ++ rest).length (rows [] ++ rest) = ']' :: rest :=
      skipGap_gap blank (.inr rfl)
    rw [close]
    simp [items?]
  | cons pair pairs ih =>
    obtain ⟨⟨flag, name⟩, free⟩ := List.forall_mem_cons.mp free
    rw [List.length_cons] at room
    obtain ⟨fuel, rfl⟩ := Nat.exists_eq_add_of_lt room
    have blank : ∀ c ∈ indent, c = ' ' ∨ c = '\n' := by simp [indent]
    rw [rows_cons, skipGap_gap blank (opensItem_quoted _ _),
      show 2 * (pairs.length + 1) + fuel + 1 = (2 * pairs.length + fuel + 1) + 2 by omega,
      items?_next flag _ read (by simp) (opensItem_quoted _ _), items?_comma name,
      ih free (by omega)]
    simp [both]

/-- An item that is read up to its end, whatever follows. -/
def ReadsItem (chars : List Char) (item : Item) : Prop :=
  ∀ (fuel : Nat) (rest : List Char), chars.length < fuel →
    item? fuel (chars ++ rest) = some (item, rest)

theorem readsItem_quoted {text : String} (free : ControlFree text) :
    ReadsItem (Json.quoted text).toList (.text text) := by
  intro fuel rest room
  obtain ⟨fuel, rfl⟩ := Nat.exists_eq_add_one_of_ne_zero (Nat.ne_of_gt (Nat.zero_lt_of_lt room))
  exact item?_quoted free fuel rest

theorem readsItem_array {values : List String} (free : ∀ text ∈ values, ControlFree text) :
    ReadsItem (CargoConfig.array values).toList (texts values) := by
  intro fuel rest room
  have shape : (CargoConfig.array values).toList = '[' :: (joined [',', ' '] values ++ [']']) := by
    rw [CargoConfig.array, String.toList_append, String.toList_append, String.toList_intercalate,
      List.map_map]
    rfl
  have count : values.length ≤ (joined [',', ' '] values).length + 1 := by
    have parts := length_le_intercalate (List.cons_ne_nil ',' [' '])
      (values.map fun text => (Json.quoted text).toList)
    rwa [List.length_map] at parts
  rw [shape] at room ⊢
  have enough : values.length + 2 ≤ fuel := by
    rw [List.length_cons, List.length_append, List.length_singleton] at room
    omega
  obtain ⟨fuel, rfl⟩ := Nat.exists_eq_add_of_le' enough
  rw [List.cons_append, List.append_assoc, List.singleton_append, ← Nat.add_assoc, item?,
    skipGap_of_opensItem (opensItem_joined _ _ _)]
  exact items?_joined free (Nat.le_add_left values.length fuel) [] rest

theorem length_quoted (text : String) : 2 ≤ (Json.quoted text).toList.length := by
  simp [Json.quoted, Json.quotedChars]

theorem length_le_rows (pairs : List (String × String)) :
    2 * pairs.length ≤ (rows pairs).length := by
  induction pairs with
  | nil => exact Nat.zero_le _
  | cons pair pairs ih =>
    have first := length_quoted pair.1
    have row := congrArg List.length (rows_cons pair pairs [])
    simp only [List.length_append, List.length_cons, List.length_nil] at row
    rw [List.length_cons]
    omega

theorem readsItem_rows {pairs : List (String × String)}
    (free : ∀ pair ∈ pairs, ControlFree pair.1 ∧ ControlFree pair.2) :
    ReadsItem ('[' :: rows pairs) (texts (pairs.flatMap both)) := by
  intro fuel rest room
  have count := length_le_rows pairs
  have enough : 2 * pairs.length + 2 ≤ fuel := by
    rw [List.length_cons] at room
    omega
  obtain ⟨fuel, rfl⟩ := Nat.exists_eq_add_of_le' enough
  rw [List.cons_append, ← Nat.add_assoc, item?]
  exact items?_rows free (by omega) [] rest

end BuildRules.Toml
