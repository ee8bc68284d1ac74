import BuildRules.Proofs.Returns
import BuildRules.Workspace.FileTree

namespace BuildRules.FileTree

variable {tree made after : FileTree} {path other : Path} {place : List String} {text : String}

theorem at?_nil (tree : FileTree) : tree.at? [] = some .directory := rfl

theorem at?_eq_lookup (tree : FileTree) (below : place ≠ []) :
    tree.at? place = tree.entries.lookup place := by
  rw [at?, if_neg]
  rwa [List.isEmpty_iff]

theorem lookup_replaced (entries : List (List String × Entry)) (place : List String)
    (entry : Entry) (there : List String) :
    (entries.map fun old => if old.1 == place then (place, entry) else old).lookup there =
      if there = place then (entries.lookup place).map fun _ => entry
      else entries.lookup there := by
  induction entries with
  | nil => simp
  | cons first rest ih =>
    obtain ⟨found, old⟩ := first
    rw [List.map_cons, List.lookup_cons]
    by_cases here : found = place
    · subst here
      by_cases same : there = found
      · subst same
        simp
      · have apart : (there == found) = false := beq_eq_false_iff_ne.mpr same
        simp only [beq_self_eq_true, if_true, List.lookup_cons, apart, ih, if_neg same]
    · have kept : (found == place) = false := beq_eq_false_iff_ne.mpr here
      have later : (place == found) = false := beq_eq_false_iff_ne.mpr (Ne.symm here)
      simp only [kept, Bool.false_eq_true, if_false, List.lookup_cons, later, ih]
      by_cases same : there = place
      · subst same
        simp only [later, if_true]
      · simp only [if_neg same]

theorem at?_put (tree : FileTree) (below : place ≠ []) (entry : Entry) (there : List String) :
    (tree.put place entry).at? there = if there = place then some entry else tree.at? there := by
  by_cases root : there = []
  · subst root
    rw [if_neg (Ne.symm below), at?_nil, at?_nil]
  · rw [at?_eq_lookup _ root, at?_eq_lookup _ root, put]
    split
    next held =>
      rw [lookup_replaced]
      obtain ⟨old, found⟩ := Option.isSome_iff_exists.mp held
      rw [found]
      rfl
    next missing =>
      rw [List.lookup_append, List.lookup_cons]
      by_cases same : there = place
      · subst same
        rw [Option.not_isSome_iff_eq_none.mp missing]
        simp
      · have apart : (there == place) = false := beq_eq_false_iff_ne.mpr same
        simp [apart, same]

@[simp] theorem current_put (tree : FileTree) (place : List String) (entry : Entry) :
    (tree.put place entry).current = tree.current := by
  rw [put]
  split <;> rfl

@[simp] theorem rights_put (tree : FileTree) (place : List String) (entry : Entry) :
    (tree.put place entry).rights = tree.rights := by
  rw [put]
  split <;> rfl

/-- The places that components pass, the first and the last included. -/
def trail (place : List String) : List String → List (List String)
  | [] => [place]
  | part :: rest => place :: trail (step place part) rest

theorem start_mem_trail (place : List String) (parts : List String) :
    place ∈ trail place parts := by
  cases parts <;> simp [trail]

theorem trail_dropLast_subset (place : List String) (parts : List String) :
    trail place parts.dropLast ⊆ trail place parts := by
  induction parts generalizing place with
  | nil => exact List.Subset.refl _
  | cons part rest ih =>
    cases rest with
    | nil =>
      intro passed member
      obtain rfl := List.mem_singleton.mp member
      exact List.mem_cons_self
    | cons next rest =>
      rw [List.dropLast_cons_cons]
      exact List.cons_subset_cons _ (ih (step place part))

theorem descend_cons {part : String} {rest last : List String} :
    tree.descend place (part :: rest) = some last ↔
      tree.at? place = some .directory ∧ tree.descend (step place part) rest = some last := by
  rw [descend]
  by_cases open_ : tree.at? place = some .directory
  · simp [open_]
  · simp [open_]

/-- A path leads on while directories are passed. -/
theorem descend_eq_some_iff {parts last : List String} (start : tree.at? place = some .directory) :
    tree.descend place parts = some last ↔
      (∀ passed ∈ trail place parts.dropLast, tree.at? passed = some .directory) ∧
        last = parts.foldl step place := by
  induction parts generalizing place with
  | nil =>
    simp only [descend, List.dropLast_nil, trail, List.forall_mem_singleton, start, true_and,
      Option.some.injEq, List.foldl_nil]
    exact eq_comm
  | cons part rest ih =>
    rw [descend_cons]
    cases rest with
    | nil =>
      simp only [descend, List.dropLast_singleton, trail, List.forall_mem_singleton, start, true_and,
        Option.some.injEq, List.foldl_cons, List.foldl_nil]
      exact eq_comm
    | cons next rest =>
      rw [List.dropLast_cons_cons, trail, List.forall_mem_cons, and_assoc]
      by_cases open_ : tree.at? (step place part) = some .directory
      · rw [ih open_]
        rfl
      · have closed : ¬ ∀ passed ∈ trail (step place part) (next :: rest).dropLast,
            tree.at? passed = some .directory :=
          fun each => open_ (each _ (start_mem_trail _ _))
        rw [descend_cons]
        simp [open_, closed]

/-- No file stands in the way. -/
def Clear (tree : FileTree) (passed : List (List String)) : Prop :=
  ∀ place ∈ passed, ∀ text, tree.at? place ≠ some (.file text)

theorem makeFrom_cons (tree : FileTree) (place : List String) (part : String)
    (rest : List String) :
    tree.makeFrom place (part :: rest) =
      match tree.at? (step place part) with
      | some .directory => tree.makeFrom (step place part) rest
      | some (.file _) => .error (if rest.isEmpty then .exists else .notDirectory)
      | none => (tree.put (step place part) .directory).makeFrom (step place part) rest := rfl

/-- A place where something or nothing is, as it is in a tree, is below the root if it is no
directory. -/
theorem ne_nil_of_at? (closed : tree.at? place ≠ some .directory) : place ≠ [] := by
  rintro rfl
  exact closed rfl

theorem exists_opened {part : String}
    (clear : ∀ text, tree.at? (step place part) ≠ some (.file text)) :
    ∃ opened : FileTree, opened.current = tree.current ∧ opened.rights = tree.rights ∧
      (∀ rest, tree.makeFrom place (part :: rest) = opened.makeFrom (step place part) rest) ∧
      ∀ there, opened.at? there =
        if there = step place part then some .directory else tree.at? there := by
  cases held : tree.at? (step place part) with
  | some entry =>
    cases entry with
    | file text => exact absurd held (clear text)
    | directory =>
      refine ⟨tree, rfl, rfl, fun rest => by rw [makeFrom_cons, held], ?_⟩
      intro there
      split
      next same => rw [same, held]
      next => rfl
  | none =>
    have below : step place part ≠ [] := ne_nil_of_at? (by rw [held]; nofun)
    exact ⟨tree.put (step place part) .directory, current_put .., rights_put ..,
      fun rest => by rw [makeFrom_cons, held], at?_put tree below .directory⟩

/-- Directories are made all along a trail without files. -/
theorem makeFrom_of_clear {parts : List String} (start : tree.at? place = some .directory)
    (clear : tree.Clear (trail place parts)) :
    ∃ made, tree.makeFrom place parts = .ok made ∧ made.current = tree.current ∧
      made.rights = tree.rights ∧ ∀ there, made.at? there =
        if there ∈ trail place parts then some .directory else tree.at? there := by
  induction parts generalizing tree place with
  | nil =>
    refine ⟨tree, rfl, rfl, rfl, ?_⟩
    intro there
    split
    next member => rw [List.mem_singleton.mp member, start]
    next => rfl
  | cons part rest ih =>
    have later : tree.Clear (trail (step place part) rest) :=
      fun there member => clear there (List.mem_cons_of_mem _ member)
    obtain ⟨opened, current, rights, entered, opening⟩ := exists_opened (later _ (start_mem_trail _ _))
    have open_ : opened.Clear (trail (step place part) rest) := by
      intro there member text
      rw [opening]
      split
      · nofun
      · exact later there member text
    -- to open one directory puts no file on what is left of the trail
    obtain ⟨made, ran, kept, same, whole⟩ := ih (by rw [opening, if_pos rfl]) open_
    refine ⟨made, (entered rest).trans ran, kept.trans current, same.trans rights, ?_⟩
    intro there
    rw [whole, opening, trail]
    by_cases here : there = place
    · subst here
      simp only [List.mem_cons_self, if_true, start]
      split
      · rfl
      · split <;> rfl
    · by_cases next : there = step place part
      · subst next
        simp [start_mem_trail]
      · simp [here, next]

theorem clear_of_makeFrom {parts : List String} (start : tree.at? place = some .directory)
    (ran : tree.makeFrom place parts = .ok made) : tree.Clear (trail place parts) := by
  induction parts generalizing tree place with
  | nil =>
    intro there member text
    rw [List.mem_singleton.mp member, start]
    nofun
  | cons part rest ih =>
    have passed : ∀ text, tree.at? (step place part) ≠ some (.file text) := by
      intro text file
      rw [makeFrom_cons, file] at ran
      cases ran
    obtain ⟨opened, -, -, entered, opening⟩ := exists_opened passed
    rw [entered] at ran
    have clear := ih (by rw [opening, if_pos rfl]) ran
    have later : tree.Clear (trail (step place part) rest) := by
      intro there member text file
      refine clear there member text ?_
      rw [opening, if_neg, file]
      rintro rfl
      exact passed text file
    intro there member text
    rcases List.mem_cons.mp member with rfl | member
    · rw [start]
      nofun
    · exact later there member text

def target (current path : Path) : List String :=
  (current.within path).parts.foldl step []

def above (current path : Path) : List (List String) :=
  trail [] (current.within path.parent).parts

theorem trail_subset_above (current path : Path) :
    trail [] (current.within path).parts.dropLast ⊆ above current path := by
  have shape : (current.within path).parts.dropLast = (current.within path.parent).parts ∨
      (current.within path).parts.dropLast = (current.within path.parent).parts.dropLast := by
    by_cases absolute : path.isAbsolute = true
    · have same : path.parent.isAbsolute = true := absolute
      rw [Path.within, Path.within, if_pos absolute, if_pos same]
      exact .inl rfl
    · have same : ¬ path.parent.isAbsolute = true := absolute
      rw [Path.within, Path.within, if_neg absolute, if_neg same]
      cases parts : path.parts with
      | nil =>
        refine .inr ?_
        simp [Path.parent, parts]
      | cons part rest =>
        refine .inl ?_
        simp only [Path.parent, parts]
        exact List.dropLast_append_of_ne_nil (List.cons_ne_nil part rest)
  rw [above]
  rcases shape with same | same
  · rw [same]
    exact List.Subset.refl _
  · rw [same]
    exact trail_dropLast_subset [] _

/-- The system has nothing against any component. -/
def Unopposed (tree : FileTree) : List String → List String → Prop
  | _, [] => True
  | place, part :: rest =>
    tree.objection? place part = none ∧ tree.Unopposed (step place part) rest

theorem unopposed_congr {other : FileTree} (rights : other.rights = tree.rights)
    (place parts : List String) : other.Unopposed place parts ↔ tree.Unopposed place parts := by
  induction parts generalizing place with
  | nil => exact Iff.rfl
  | cons part rest ih => rw [Unopposed, Unopposed, ih, objection?, objection?, rights]

/-- On a way through directories every objection is met. -/
theorem obstacle?_eq_none_iff {parts : List String}
    (passed : ∀ there ∈ trail place parts.dropLast, tree.at? there = some .directory) :
    tree.obstacle? place parts = none ↔ tree.Unopposed place parts := by
  induction parts generalizing place with
  | nil => simp [obstacle?, Unopposed]
  | cons part rest ih =>
    have later : tree.obstacle? (step place part) rest = none ↔
        tree.Unopposed (step place part) rest := by
      cases rest with
      | nil => simp [obstacle?, Unopposed]
      | cons next rest => exact ih fun there member => passed there (List.mem_cons_of_mem _ member)
    have here : tree.at? place = some .directory := passed place (start_mem_trail _ _)
    rw [obstacle?, Unopposed, ← later, here]
    cases tree.objection? place part <;> simp

/-- Where directories and files stay, directories can be made that could be made before. -/
theorem refusal?_of_kept {parts : List String} (rights : after.rights = tree.rights)
    (directories : ∀ there, tree.at? there = some .directory → after.at? there = some .directory)
    (files : ∀ there text, tree.at? there = some (.file text) →
      ∃ other, after.at? there = some (.file other))
    (unopposed : tree.refusal? place parts = none) : after.refusal? place parts = none := by
  induction parts generalizing place with
  | nil => rfl
  | cons part rest ih =>
    rw [refusal?, Option.or_eq_none_iff] at unopposed ⊢
    obtain ⟨objection, further⟩ := unopposed
    refine ⟨by rwa [objection?, rights], ?_⟩
    cases held : tree.at? (step place part) with
    | some entry =>
      rw [held] at further
      cases entry with
      | directory =>
        rw [directories _ held]
        exact ih further
      | file text =>
        obtain ⟨other, kept⟩ := files _ _ held
        rw [kept]
    | none =>
      rw [held] at further
      dsimp only at further
      split at further
      next writable =>
        cases now : after.at? (step place part) with
        | some entry =>
          cases entry with
          | directory => exact ih further
          | file text => rfl
        | none =>
          dsimp only
          rw [rights, if_pos writable]
          exact ih further
      next => cases further

theorem place?_eq_some_iff :
    tree.place? path = some place ↔
      (∀ passed ∈ trail [] (tree.current.within path).parts.dropLast,
        tree.at? passed = some .directory) ∧ place = target tree.current path :=
  descend_eq_some_iff (at?_nil tree)

theorem find?_eq_some_iff {entry : Entry} : tree.find? path = some entry ↔
    ∃ place, tree.place? path = some place ∧ tree.at? place = some entry := by
  rw [find?]
  exact Option.bind_eq_some_iff

theorem trail_append (place : List String) (front parts : List String) :
    trail (front.foldl step place) parts ⊆ trail place (front ++ parts) := by
  induction front generalizing place with
  | nil => exact List.Subset.refl _
  | cons part front ih =>
    intro there member
    exact List.mem_cons_of_mem _ (ih (step place part) member)

/-- A path is entered where the directory that it starts from has been reached. -/
theorem trail_origin_subset (tree : FileTree) (path : Path) :
    ∀ there ∈ trail (tree.origin path) path.parts.dropLast, path.parts = [] ∨
      there ∈ trail [] (tree.current.within path).parts.dropLast := by
  intro there member
  refine or_iff_not_imp_left.mpr fun some => ?_
  rw [origin] at member
  rw [Path.within]
  split at member
  next absolute => rwa [if_pos absolute]
  next relative =>
    rw [if_neg relative]
    dsimp only
    rw [List.dropLast_append_of_ne_nil some]
    exact trail_append [] _ _ member

/-- A path leads on without hindrance. -/
theorem hindrance?_eq_none_iff (found : (tree.place? path).isSome) :
    tree.hindrance? path = none ↔
      path.display.utf8ByteSize ≤ maxPathBytes ∧ tree.Unopposed (tree.origin path) path.parts := by
  obtain ⟨place, found⟩ := Option.isSome_iff_exists.mp found
  have passed := (place?_eq_some_iff.mp found).1
  have obstacle : tree.obstacle? (tree.origin path) path.parts = none ↔
      tree.Unopposed (tree.origin path) path.parts := by
    by_cases empty : path.parts = []
    · rw [empty]
      simp [obstacle?, Unopposed]
    · exact obstacle?_eq_none_iff fun there member =>
        passed there ((trail_origin_subset tree path there member).resolve_left empty)
  rw [hindrance?, ← obstacle]
  split
  next long => simp [Nat.not_le.mpr long]
  next short => simp [Nat.le_of_not_lt short]

theorem write_eq_ok_iff :
    tree.write path text = .ok after ↔
      hasZero path = false ∧ tree.hindrance? path = none ∧
        ∃ place, tree.place? path = some place ∧ tree.at? place ≠ some .directory ∧
          tree.at? place.dropLast = some .directory ∧ tree.mayWrite place = true ∧
          after = tree.put place (.file text) := by
  rw [write]
  cases hasZero path with
  | true => simp
  | false =>
    cases tree.hindrance? path with
    | some fault => simp
    | none =>
      cases tree.place? path with
      | none => simp
      | some place =>
        by_cases closed : tree.at? place = some .directory
        · simp [closed]
        · cases above : tree.at? place.dropLast with
          | none => simp [above]
          | some entry =>
            cases entry with
            | file other => simp [above]
            | directory =>
              have same : after = tree.put place (.file text) ↔
                tree.put place (.file text) = after := eq_comm
              cases allowed : tree.mayWrite place <;> cases held : tree.at? place with
              | none => simp [above, held, same, allowed]
              | some entry =>
                cases entry with
                | file other => simp [above, held, same, allowed]
                | directory => exact absurd held closed

def save (tree : FileTree) (path : Path) (text : String) : Except Fault FileTree := do
  let made ← tree.makeDirectory path.parent
  made.write path text

def Writable (tree : FileTree) (path : Path) : Prop := ∃ after, tree.save path "" = .ok after

/-- What it takes to make the directories above a file. -/
structure Ready (tree : FileTree) (path : Path) : Prop where
  free : hasZero path.parent = false
  short : path.parent.display.utf8ByteSize ≤ maxPathBytes
  unopposed : tree.refusal? (tree.origin path.parent) path.parent.parts = none
  clear : tree.Clear (above tree.current path)

/-- What it takes to save a file there: the directories above it can be made, nothing is against
the path, and it leads to what is no directory, in a directory that is there or on the way. -/
structure Open (tree : FileTree) (path : Path) : Prop where
  ready : tree.Ready path
  free : hasZero path = false
  short : path.display.utf8ByteSize ≤ maxPathBytes
  unopposed : tree.Unopposed (tree.origin path) path.parts
  off : target tree.current path ∉ above tree.current path
  closed : tree.at? (target tree.current path) ≠ some .directory
  within : (target tree.current path).dropLast ∈ above tree.current path ∨
    tree.at? (target tree.current path).dropLast = some .directory
  writable : tree.mayWrite (target tree.current path) = true

/-- Saving changes what the path leads to, and makes a directory of all that is passed. -/
structure Saved (tree : FileTree) (path : Path) (text : String) (after : FileTree) : Prop where
  current : after.current = tree.current
  rights : after.rights = tree.rights
  whole : ∀ there, after.at? there =
    if there = target tree.current path then some (.file text)
    else if there ∈ above tree.current path then some .directory
    else tree.at? there

theorem makeDirectory_of_ready (ready : tree.Ready path) :
    ∃ made, tree.makeDirectory path.parent = .ok made ∧ made.current = tree.current ∧
      made.rights = tree.rights ∧ ∀ there, made.at? there =
        if there ∈ above tree.current path then some .directory else tree.at? there := by
  obtain ⟨free, short, unopposed, clear⟩ := ready
  have made : tree.makeDirectory path.parent =
      tree.makeFrom [] (tree.current.within path.parent).parts := by
    rw [makeDirectory, free, if_neg (by simp), if_neg (Nat.not_lt.mpr short), unopposed]
  rw [made]
  exact makeFrom_of_clear (at?_nil tree) clear

theorem ready_of_makeDirectory (ran : tree.makeDirectory path.parent = .ok made) :
    tree.Ready path := by
  rw [makeDirectory] at ran
  split at ran
  next => cases ran
  next free =>
    split at ran
    next => cases ran
    next short =>
      split at ran
      next => cases ran
      next unopposed =>
        exact ⟨by simpa using free, Nat.le_of_not_lt short, unopposed,
          clear_of_makeFrom (at?_nil tree) ran⟩

theorem mayWrite_congr {other : FileTree} (rights : other.rights = tree.rights)
    (same : other.at? place = tree.at? place) : other.mayWrite place = tree.mayWrite place := by
  rw [mayWrite, mayWrite, rights, same]

theorem save_of_open (open_ : tree.Open path) (text : String) :
    ∃ after, tree.save path text = .ok after ∧ tree.Saved path text after := by
  obtain ⟨made, ran, current, rights, whole⟩ := makeDirectory_of_ready open_.ready
  have passed : ∀ there ∈ trail [] (made.current.within path).parts.dropLast,
      made.at? there = some .directory := by
    intro there member
    rw [current] at member
    rw [whole, if_pos (trail_subset_above _ _ member)]
  have same : made.at? (target tree.current path) = tree.at? (target tree.current path) := by
    rw [whole, if_neg open_.off]
  have closed : made.at? (target tree.current path) ≠ some .directory := same ▸ open_.closed
  have within : made.at? (target tree.current path).dropLast = some .directory := by
    rw [whole]
    split
    · rfl
    next apart => exact open_.within.resolve_left apart
  have found : made.place? path = some (target tree.current path) :=
    place?_eq_some_iff.mpr ⟨passed, by rw [current]⟩
  have unhindered : made.hindrance? path = none := by
    refine (hindrance?_eq_none_iff (Option.isSome_iff_exists.mpr ⟨_, found⟩)).mpr ⟨open_.short, ?_⟩
    rw [unopposed_congr rights, origin, current]
    exact open_.unopposed
  have writable : made.mayWrite (target tree.current path) = true :=
    (mayWrite_congr rights same).trans open_.writable
  refine ⟨made.put (target tree.current path) (.file text), bind_eq_ok.mpr ⟨made, ran, ?_⟩, ?_, ?_,
    ?_⟩
  · exact write_eq_ok_iff.mpr
      ⟨open_.free, unhindered, _, found, closed, within, writable, rfl⟩
  · rw [current_put, current]
  · rw [rights_put, rights]
  · intro there
    rw [at?_put made (ne_nil_of_at? closed), whole]

theorem open_of_save (saved : tree.save path text = .ok after) : tree.Open path := by
  obtain ⟨made, ran, written⟩ := bind_eq_ok.mp saved
  have ready := ready_of_makeDirectory ran
  obtain ⟨other, again, current, rights, whole⟩ := makeDirectory_of_ready ready
  obtain rfl : made = other := Except.ok.inj (ran.symm.trans again)
  obtain ⟨free, unhindered, place, found, closed, within, writable, -⟩ :=
    write_eq_ok_iff.mp written
  obtain ⟨short, unopposed⟩ :=
    (hindrance?_eq_none_iff (Option.isSome_iff_exists.mpr ⟨_, found⟩)).mp unhindered
  obtain ⟨-, rfl⟩ := place?_eq_some_iff.mp found
  rw [unopposed_congr rights, origin, current] at unopposed
  rw [current] at closed within writable
  have off : target tree.current path ∉ above tree.current path := by
    intro member
    refine closed ?_
    rw [whole]
    exact if_pos member
  have same : made.at? (target tree.current path) = tree.at? (target tree.current path) := by
    rw [whole, if_neg off]
  refine ⟨ready, free, short, unopposed, off, same ▸ closed, ?_, ?_⟩
  · rw [whole] at within
    split at within
    next member => exact .inl member
    next => exact .inr within
  · rwa [mayWrite_congr rights same] at writable

theorem saved_of_save (ran : tree.save path text = .ok after) : tree.Saved path text after := by
  obtain ⟨other, again, saved⟩ := save_of_open (open_of_save ran) text
  cases ran.symm.trans again
  exact saved

theorem save_of_writable (writable : tree.Writable path) (text : String) :
    ∃ after, tree.save path text = .ok after := by
  obtain ⟨after, ran⟩ := writable
  obtain ⟨after, ran, -⟩ := save_of_open (open_of_save ran) text
  exact ⟨after, ran⟩

theorem find?_of_save (ran : tree.save path text = .ok after) :
    after.find? path = some (.file text) := by
  have open_ := open_of_save ran
  have saved := saved_of_save ran
  refine find?_eq_some_iff.mpr ⟨target tree.current path, place?_eq_some_iff.mpr ⟨?_, ?_⟩, ?_⟩
  · intro there member
    rw [saved.current] at member
    have passed := trail_subset_above _ _ member
    have apart : there ≠ target tree.current path := fun same => open_.off (same ▸ passed)
    rw [saved.whole, if_neg apart, if_pos passed]
  · rw [saved.current]
  · rw [saved.whole, if_pos rfl]

/-- Two paths that lead to different places, neither of them on the way to the other. -/
structure Apart (tree : FileTree) (path other : Path) : Prop where
  places : target tree.current path ≠ target tree.current other
  before : target tree.current path ∉ above tree.current other
  behind : target tree.current other ∉ above tree.current path

/-- What was there before a file is saved elsewhere is there after it. -/
theorem find?_of_save_elsewhere (apart : target tree.current other ≠ target tree.current path)
    (ran : tree.save path text = .ok after) {held : String}
    (there : tree.find? other = some (.file held)) : after.find? other = some (.file held) := by
  have open_ := open_of_save ran
  have saved := saved_of_save ran
  obtain ⟨place, found, file⟩ := find?_eq_some_iff.mp there
  obtain ⟨passed, rfl⟩ := place?_eq_some_iff.mp found
  refine find?_eq_some_iff.mpr ⟨target tree.current other, place?_eq_some_iff.mpr ⟨?_, ?_⟩, ?_⟩
  · intro there member
    rw [saved.current] at member
    have directory := passed there member
    have other : there ≠ target tree.current path := by
      rintro rfl
      exact open_.closed directory
    rw [saved.whole, if_neg other, directory]
    split <;> rfl
  · rw [saved.current]
  · have missed : target tree.current other ∉ above tree.current path :=
      fun member => open_.ready.clear _ member held file
    rw [saved.whole, if_neg apart, if_neg missed, file]

/-- Nothing that was there becomes something else by saving. -/
theorem Saved.kept (saved : tree.Saved path text after) (open_ : tree.Open path)
    (there : List String) :
    (tree.at? there = some .directory → after.at? there = some .directory) ∧
      ∀ held, tree.at? there = some (.file held) → ∃ other, after.at? there = some (.file other) := by
  rw [saved.whole]
  split
  next same =>
    subst same
    exact ⟨fun directory => absurd directory open_.closed, fun _ _ => ⟨text, rfl⟩⟩
  next =>
    split
    next passed => exact ⟨fun _ => rfl, fun held file => absurd file (open_.ready.clear _ passed held)⟩
    next => exact ⟨id, fun held file => ⟨held, file⟩⟩

theorem writable_of_save (apart : tree.Apart path other) (writable : tree.Writable other)
    (ran : tree.save path text = .ok after) : after.Writable other := by
  have first := open_of_save ran
  have saved := saved_of_save ran
  obtain ⟨_, would⟩ := writable
  have second := open_of_save would
  have same : after.at? (target tree.current other) = tree.at? (target tree.current other) := by
    rw [saved.whole, if_neg apart.places.symm, if_neg apart.behind]
  have open_ : after.Open other := by
    refine ⟨⟨second.ready.free, second.ready.short, ?_, ?_⟩, second.free, second.short, ?_, ?_, ?_,
      ?_, ?_⟩
    · rw [origin, saved.current]
      exact refusal?_of_kept saved.rights (fun there => (saved.kept first there).1)
        (fun there => (saved.kept first there).2) second.ready.unopposed
    · intro there member held
      rw [saved.current] at member
      have missed : there ≠ target tree.current path := by
        rintro rfl
        exact apart.before member
      rw [saved.whole, if_neg missed]
      split
      · nofun
      · exact second.ready.clear there member held
    · rw [unopposed_congr saved.rights, origin, saved.current]
      exact second.unopposed
    · rw [saved.current]
      exact second.off
    · rw [saved.current, same]
      exact second.closed
    · rw [saved.current]
      exact second.within.imp_right (saved.kept first _).1
    · rw [saved.current, mayWrite_congr saved.rights same]
      exact second.writable
  obtain ⟨last, ran, -⟩ := save_of_open open_ ""
  exact ⟨last, ran⟩

end BuildRules.FileTree
