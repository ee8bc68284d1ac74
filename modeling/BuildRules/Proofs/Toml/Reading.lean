import BuildRules.Proofs.Toml.Array
import BuildRules.Proofs.Toml.SimpleKey
import Mathlib.Data.List.Forall2

namespace BuildRules.Toml

/-- What begins with no white space. -/
abbrev Solid (rest : List Char) : Prop := Text.Ends isBlank rest

theorem skipBlank_of_solid {chars : List Char} (solid : Solid chars) : skipBlank chars = chars :=
  Text.dropWhile_of_ends solid

theorem isBlank_of_isKeyChar {c : Char} (bare : isKeyChar c = true) :
    isBlank c = false := by
  have space : c ≠ ' ' := by
    rintro rfl
    exact absurd bare (by decide)
  have tab : c ≠ '\t' := by
    rintro rfl
    exact absurd bare (by decide)
  simp [isBlank, space, tab]

/-- What begins like a key begins with no white space. -/
theorem solid_of_head {first : Char} (kind : first = '\x22' ∨ isKeyChar first = true)
    (rest : List Char) : Solid (first :: rest) := by
  rcases kind with rfl | bare
  · exact Text.ends_cons (by decide)
  · exact Text.ends_cons (isBlank_of_isKeyChar bare)

def pathChars (path : List String) : List Char :=
  ['.'].intercalate (path.map fun name => (CargoConfig.key name).toList)

theorem pathChars_singleton (name : String) :
    pathChars [name] = (CargoConfig.key name).toList := List.intercalate_singleton

theorem pathChars_cons_cons (name next : String) (path : List String) :
    pathChars (name :: next :: path) =
      (CargoConfig.key name).toList ++ '.' :: pathChars (next :: path) := by
  rw [pathChars, List.map_cons, List.map_cons, List.intercalate_cons_cons, List.append_assoc]
  rfl

section Keys

variable {name : String} {chars rest more : List Char}

theorem keyPath?_last (read : simpleKey? chars = some (name, rest))
    (last : ∀ more, skipBlank rest ≠ '.' :: more) (fuel : Nat) :
    keyPath? (fuel + 1) chars = some ([name], skipBlank rest) := by
  rw [keyPath?, read]
  dsimp only [bind, Option.bind]
  split
  next more shape => exact absurd shape (last more)
  next => rfl

theorem keyPath?_next (read : simpleKey? chars = some (name, '.' :: more)) (fuel : Nat) :
    keyPath? (fuel + 1) chars =
      (keyPath? fuel (skipBlank more)).bind fun read => some (name :: read.1, read.2) := by
  rw [keyPath?, read]
  rfl

/-- Behind the first key and its dot stands the rest of the path. -/
theorem keyPath?_later {first : String} {names : List String} {fuel : Nat}
    (read : simpleKey? chars = some (name, '.' :: more))
    (path : keyPath? fuel chars = some (first :: names, rest)) :
    ∃ less, keyPath? less (skipBlank more) = some (names, rest) := by
  cases fuel with
  | zero => cases path
  | succ fuel =>
    rw [keyPath?_next read] at path
    obtain ⟨⟨later, after⟩, inner, whole⟩ := Option.bind_eq_some_iff.mp path
    cases whole
    exact ⟨fuel, inner⟩

end Keys

theorem ends_dot (more : List Char) : Text.Ends isKeyChar ('.' :: more) :=
  Text.ends_cons (by decide)

theorem head_pathChars {path : List String} (nonempty : path ≠ []) :
    ∃ first more, pathChars path = first :: more ∧ (first = '\x22' ∨ isKeyChar first = true) := by
  obtain ⟨name, path, rfl⟩ := List.exists_cons_of_ne_nil nonempty
  obtain ⟨first, more, shape, kind⟩ := head_key name
  cases path with
  | nil =>
    rw [pathChars_singleton]
    exact ⟨first, more, shape, kind⟩
  | cons next path =>
    rw [pathChars_cons_cons, shape]
    exact ⟨first, _, rfl, kind⟩

theorem solid_pathChars {path : List String} (nonempty : path ≠ []) (rest : List Char) :
    Solid (pathChars path ++ rest) := by
  obtain ⟨first, more, shape, kind⟩ := head_pathChars nonempty
  rw [shape]
  exact solid_of_head kind _

/-- A path is read up to what is neither a dot nor part of a key. -/
theorem keyPath?_pathChars {path : List String} (nonempty : path ≠ [])
    (named : ∀ name ∈ path, Keyable name) {rest : List Char} (ends : Text.Ends isKeyChar rest)
    (last : ∀ more, skipBlank rest ≠ '.' :: more) {fuel : Nat} (room : path.length ≤ fuel) :
    keyPath? fuel (pathChars path ++ rest) = some (path, skipBlank rest) := by
  induction path generalizing fuel with
  | nil => exact absurd rfl nonempty
  | cons name path ih =>
    obtain ⟨first, named⟩ := List.forall_mem_cons.mp named
    obtain ⟨fuel, rfl⟩ := Nat.exists_eq_add_one_of_ne_zero (Nat.ne_of_gt (Nat.zero_lt_of_lt room))
    cases path with
    | nil =>
      rw [pathChars_singleton]
      exact keyPath?_last (simpleKey?_key first ends) last fuel
    | cons next path =>
      rw [pathChars_cons_cons, List.append_assoc, List.cons_append,
        keyPath?_next (simpleKey?_key first (ends_dot _)),
        skipBlank_of_solid (solid_pathChars (List.cons_ne_nil next path) rest),
        ih (List.cons_ne_nil next path) named (Nat.le_of_succ_le_succ room)]
      rfl

theorem length_le_pathChars (path : List String) (rest : List Char) :
    path.length ≤ (pathChars path ++ rest).length + 1 := by
  have count := length_le_intercalate (List.cons_ne_nil '.' [])
    (path.map fun name => (CargoConfig.key name).toList)
  rw [List.length_map, ← pathChars] at count
  rw [List.length_append]
  omega

theorem keyPath?_equals {path : List String} (nonempty : path ≠ [])
    (named : ∀ name ∈ path, Keyable name) (value : List Char) :
    keyPath? ((pathChars path ++ ' ' :: '=' :: ' ' :: value).length + 1)
      (pathChars path ++ ' ' :: '=' :: ' ' :: value) = some (path, '=' :: ' ' :: value) := by
  have ends : Text.Ends isKeyChar (' ' :: '=' :: ' ' :: value) := Text.ends_cons (by decide)
  have equals : skipBlank (' ' :: '=' :: ' ' :: value) = '=' :: ' ' :: value := rfl
  have last : ∀ more, skipBlank (' ' :: '=' :: ' ' :: value) ≠ '.' :: more := by
    intro more shape
    rw [equals] at shape
    exact absurd (List.cons.inj shape).1 (by decide)
  exact keyPath?_pathChars nonempty named ends last (length_le_pathChars path _)

theorem line?_table {path : List String} (nonempty : path ≠ [])
    (named : ∀ name ∈ path, Keyable name) (rest : List Char) :
    line? ('[' :: (pathChars path ++ ']' :: rest)) = some (some (.table path), rest) := by
  have ends : Text.Ends isKeyChar (']' :: rest) := Text.ends_cons (by decide)
  have close : skipBlank (']' :: rest) = ']' :: rest := rfl
  have last : ∀ more, skipBlank (']' :: rest) ≠ '.' :: more := by
    intro more shape
    rw [close] at shape
    exact absurd (List.cons.inj shape).1 (by decide)
  have read := keyPath?_pathChars nonempty named ends last (length_le_pathChars path (']' :: rest))
  have bracket : skipBlank ('[' :: (pathChars path ++ ']' :: rest)) =
      '[' :: (pathChars path ++ ']' :: rest) := rfl
  rw [line?, bracket]
  simp only [skipBlank_of_solid (solid_pathChars nonempty _), read, close]
  rfl

/-- The path of a header is read up to its bracket. -/
theorem keyPath?_of_line? {chars rest : List Char} {path : List String}
    (read : line? ('[' :: chars) = some (some (.table path), rest)) :
    keyPath? (chars.length + 1) (skipBlank chars) = some (path, ']' :: rest) := by
  have bracket : skipBlank ('[' :: chars) = '[' :: chars := rfl
  rw [line?, bracket] at read
  obtain ⟨⟨names, after⟩, key, read⟩ := Option.bind_eq_some_iff.mp read
  dsimp only at read
  split at read
  next =>
    cases read
    exact key
  next => cases read

/-- An item begins with a quote or a bracket. -/
theorem solid_of_item? {fuel : Nat} {chars : List Char} {found : Item × List Char}
    (read : item? fuel chars = some found) : Solid chars := by
  cases fuel with
  | zero => cases read
  | succ fuel =>
    rw [item?.eq_def] at read
    dsimp only at read
    split at read
    next =>
      intro c same
      cases same
      rfl
    next =>
      intro c same
      cases same
      rfl
    next => cases read

theorem assignment?_path {path : List String} (nonempty : path ≠ [])
    (named : ∀ name ∈ path, Keyable name) {chars : List Char} {item : Item}
    (reads : ReadsItem chars item) (rest : List Char) :
    assignment? (pathChars path ++ ' ' :: '=' :: ' ' :: (chars ++ rest)) =
      some ((path, item), rest) := by
  have key := keyPath?_equals nonempty named (chars ++ rest)
  have room : chars.length < 2 * (' ' :: (chars ++ rest)).length + 2 := by
    rw [List.length_cons, List.length_append]
    omega
  have read := reads _ rest room
  have value : skipBlank (' ' :: (chars ++ rest)) = chars ++ rest :=
    skipBlank_of_solid (solid_of_item? read)
  rw [assignment?, key]
  change ((item? (2 * (' ' :: (chars ++ rest)).length + 2) (skipBlank (' ' :: (chars ++ rest)))).bind
    fun found => some ((path, found.1), found.2)) = _
  rw [value, read]
  rfl

theorem of_assignment? {chars rest : List Char} {path : List String} {item : Item}
    (read : assignment? chars = some ((path, item), rest)) :
    ∃ more, keyPath? (chars.length + 1) chars = some (path, '=' :: more) ∧
      item? (2 * more.length + 2) (skipBlank more) = some (item, rest) := by
  obtain ⟨⟨key, after⟩, path, read⟩ := Option.bind_eq_some_iff.mp read
  dsimp only at read
  split at read
  next more =>
    obtain ⟨⟨value, rest⟩, item, read⟩ := Option.bind_eq_some_iff.mp read
    cases read
    exact ⟨more, path, item⟩
  next => cases read

/-- What opens neither a table nor a comment nor another line is an assignment. -/
theorem line?_assignment {first : Char} (more : List Char) (solid : isBlank first = false)
    (plain : first ≠ '[' ∧ first ≠ '#' ∧ first ≠ '\n' ∧ first ≠ '\r') :
    line? (first :: more) = (assignment? (first :: more)).bind fun read =>
      some (some (.setting read.1.1 read.1.2), read.2) := by
  obtain ⟨bracket, mark, feed, back⟩ := plain
  rw [line?, skipBlank_of_solid (Text.ends_cons solid)]
  split
  next same => exact absurd (List.cons.inj same).1 bracket
  next same => cases same
  next same => exact absurd (List.cons.inj same).1 mark
  next same => exact absurd (List.cons.inj same).1 feed
  next same => exact absurd (List.cons.inj same).1 back
  next => rfl

def ReadsLine (chars : List Char) (found : Option Line) : Prop :=
  ∀ rest, (∀ c ∈ rest.head?, c = '\n') → line? (chars ++ rest) = some (found, rest)

theorem readsLine_nil : ReadsLine [] none := by
  intro rest ends
  cases rest with
  | nil => rfl
  | cons c rest =>
    obtain rfl := ends c rfl
    rfl

theorem readsLine_table {path : List String} (nonempty : path ≠ [])
    (named : ∀ name ∈ path, Keyable name) :
    ReadsLine ('[' :: (pathChars path ++ [']'])) (some (.table path)) := by
  intro rest _
  rw [List.cons_append, List.append_assoc]
  exact line?_table nonempty named rest

theorem readsLine_path {path : List String} (nonempty : path ≠ [])
    (named : ∀ name ∈ path, Keyable name) {chars : List Char} {item : Item}
    (reads : ReadsItem chars item) :
    ReadsLine (pathChars path ++ ' ' :: '=' :: ' ' :: chars) (some (.setting path item)) := by
  intro rest _
  have read := assignment?_path nonempty named reads rest
  obtain ⟨first, more, shape, kind⟩ := head_pathChars nonempty
  have opens : isBlank first = false ∧
      first ≠ '[' ∧ first ≠ '#' ∧ first ≠ '\n' ∧ first ≠ '\r' := by
    rcases kind with rfl | bare
    · decide
    · refine ⟨isBlank_of_isKeyChar bare, ?_, ?_, ?_, ?_⟩ <;>
      · rintro rfl
        exact absurd bare (by decide)
  rw [shape, List.cons_append] at read
  rw [List.append_assoc, shape, List.cons_append, List.cons_append, List.cons_append,
    List.cons_append, line?_assignment _ opens.1 opens.2, read]
  rfl

theorem readsLine_setting {name : String} (named : Keyable name) {chars : List Char}
    {item : Item} (reads : ReadsItem chars item) :
    ReadsLine ((CargoConfig.key name).toList ++ ' ' :: '=' :: ' ' :: chars)
      (some (.setting [name] item)) := by
  have line := readsLine_path (List.cons_ne_nil name []) (List.forall_mem_singleton.mpr named) reads
  rwa [pathChars_singleton] at line

/-- The lines of a text begin with what stands on the first. -/
theorem line?_of_lines? {fuel : Nat} {chars : List Char} {found : List Line}
    (read : lines? fuel chars = some found) :
    ∃ first rest later, line? chars = some (first, rest) ∧ found = first.toList ++ later := by
  cases fuel with
  | zero => cases read
  | succ fuel =>
    obtain ⟨⟨first, rest⟩, line, read⟩ := Option.bind_eq_some_iff.mp read
    dsimp only at read
    split at read
    next =>
      cases read
      exact ⟨first, rest, [], line, (List.append_nil _).symm⟩
    next =>
      obtain ⟨more, -, read⟩ := Option.bind_eq_some_iff.mp read
      obtain ⟨later, -, read⟩ := Option.bind_eq_some_iff.mp read
      cases read
      exact ⟨first, rest, later, line, rfl⟩

/-- Lines that can be read each, up to their ends, can be read one after the other. -/
theorem lines?_intercalate {texts : List (List Char)} {founds : List (Option Line)}
    (reads : List.Forall₂ ReadsLine texts founds) {fuel : Nat} (room : texts.length ≤ fuel + 1) :
    lines? (fuel + 1) (['\n'].intercalate texts) = some (founds.flatMap Option.toList) := by
  induction reads generalizing fuel with
  | nil => rfl
  | @cons text found texts founds first others ih =>
    cases others with
    | nil =>
      have read := first [] (by simp)
      rw [List.append_nil] at read
      rw [List.intercalate_singleton, lines?, read]
      simp [skipBlank, skipComment]
    | @cons next more texts founds second others =>
      have shorter : (next :: texts).length ≤ fuel := Nat.le_of_succ_le_succ room
      obtain ⟨fuel, rfl⟩ := Nat.exists_eq_add_one_of_ne_zero
        (Nat.ne_of_gt (Nat.zero_lt_of_lt shorter))
      have later := ih shorter
      have read := first ('\n' :: ['\n'].intercalate (next :: texts)) (by simp)
      rw [List.intercalate_cons_cons, List.append_assoc, List.singleton_append, lines?, read]
      change ((lines? (fuel + 1) (['\n'].intercalate (next :: texts))).bind fun later =>
        some (found.toList ++ later)) = _
      rw [later]
      rfl

end BuildRules.Toml
