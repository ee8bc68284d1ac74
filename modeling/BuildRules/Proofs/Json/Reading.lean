import BuildRules.Proofs.Json.Quoted
import BuildRules.Proofs.Json.Word

namespace BuildRules.Json

/-- A comma and a colon, each with white space behind it or none. -/
structure Layout.Separates (layout : Layout) : Prop where
  items : ∃ blank, layout.itemSeparator.toList = ',' :: blank ∧ ∀ c ∈ blank, isSpace c = true
  keys : ∃ blank, layout.keySeparator.toList = ':' :: blank ∧ ∀ c ∈ blank, isSpace c = true

theorem separates_indented : Layout.indented.Separates :=
  ⟨⟨[], rfl, by simp⟩, ⟨[' '], rfl, by simp [isSpace]⟩⟩

theorem separates_compact : Layout.compact.Separates :=
  ⟨⟨[], rfl, by simp⟩, ⟨[], rfl, by simp⟩⟩

theorem toList_intercalate_cons (separator first : String) (rest : List String) :
    (separator.intercalate (first :: rest)).toList =
      first.toList ++ rest.flatMap fun text => separator.toList ++ text.toList := by
  induction rest generalizing first with
  | nil => simp
  | cons second rest ih =>
    rw [String.intercalate_cons_cons, String.toList_append, String.toList_append, ih]
    simp

theorem toList_quoted (text : String) : (quoted text).toList = quotedChars text.toList :=
  String.toList_ofList

theorem toList_enclosed (layout : Layout) (depth : Nat) (left right first : String)
    (rest : List String) :
    (enclosed layout depth left right (first :: rest)).toList =
      left.toList ++ ((gap layout (depth + 1)).toList ++ (first.toList ++
        (rest.flatMap (fun text => layout.itemSeparator.toList ++
          ((gap layout (depth + 1)).toList ++ text.toList)) ++
        ((gap layout depth).toList ++ right.toList)))) := by
  simp only [enclosed, List.isEmpty_cons, Bool.false_eq_true, if_false, String.toList_append,
    toList_intercalate_cons, List.append_assoc]

theorem ok_bind {α β : Type} (value : α) (next : α → Except ParseError β) :
    .ok value >>= next = next value := rfl

variable {layout : Layout}

def spelled (layout : Layout) (depth : Nat) (document : Json) : List Char :=
  (renderAt layout depth document).toList

def itemsAfter (layout : Layout) (depth : Nat) : List Json → List Char
  | [] => (gap layout depth).toList ++ [']']
  | item :: rest => layout.itemSeparator.toList ++ ((gap layout (depth + 1)).toList ++
      (spelled layout (depth + 1) item ++ itemsAfter layout depth rest))

def memberText (layout : Layout) (depth : Nat) (member : String × Json) : List Char :=
  quotedChars member.1.toList ++ (layout.keySeparator.toList ++ spelled layout depth member.2)

def membersAfter (layout : Layout) (depth : Nat) : List (String × Json) → List Char
  | [] => (gap layout depth).toList ++ ['\x7d']
  | member :: rest => layout.itemSeparator.toList ++ ((gap layout (depth + 1)).toList ++
      (memberText layout (depth + 1) member ++ membersAfter layout depth rest))

theorem itemsAfter_eq (depth : Nat) (items : List Json) :
    itemsAfter layout depth items =
      (renderItems layout (depth + 1) items).flatMap (fun text => layout.itemSeparator.toList ++
        ((gap layout (depth + 1)).toList ++ text.toList)) ++ ((gap layout depth).toList ++ [']']) := by
  induction items with
  | nil => rfl
  | cons item rest ih =>
    rw [itemsAfter, ih, renderItems, List.flatMap_cons]
    simp only [spelled, List.append_assoc]

theorem membersAfter_eq (depth : Nat) (members : List (String × Json)) :
    membersAfter layout depth members =
      (renderMembers layout (depth + 1) members).flatMap (fun text =>
        layout.itemSeparator.toList ++ ((gap layout (depth + 1)).toList ++ text.toList)) ++
      ((gap layout depth).toList ++ ['\x7d']) := by
  induction members with
  | nil => rfl
  | cons member rest ih =>
    rw [membersAfter, ih, renderMembers, List.flatMap_cons]
    simp only [memberText, spelled, String.toList_append, toList_quoted, List.append_assoc]

/-- Documents whose text is one word in every layout. -/
def isWord : Json → Bool
  | .null | .bool _ | .int .. | .float _ => true
  | _ => false

theorem spelled_word (layout : Layout) {document : Json} (word : document.isWord = true)
    (depth : Nat) :
    spelled layout depth document ≠ [] ∧
      ∀ c ∈ spelled layout depth document, isWordChar c = true := by
  cases document with
  | null =>
    rw [spelled, renderAt]
    exact ⟨by decide, List.all_eq_true.mp (by decide)⟩
  | bool value =>
    rw [spelled, renderAt]
    cases value with
    | true => exact ⟨by decide, List.all_eq_true.mp (by decide)⟩
    | false => exact ⟨by decide, List.all_eq_true.mp (by decide)⟩
  | int value short =>
    rw [spelled, renderAt]
    exact (signed_int value).word
  | float value =>
    rw [spelled, renderAt]
    cases value with
    | nan => exact ⟨by decide, List.all_eq_true.mp (by decide)⟩
    | infinity negative =>
      cases negative with
      | true => exact ⟨by decide, List.all_eq_true.mp (by decide)⟩
      | false => exact ⟨by decide, List.all_eq_true.mp (by decide)⟩
    | finite negative index => exact (signed_float negative index).word
  | text _ | array _ | object _ => cases word

theorem value_word {document : Json} (word : document.isWord = true) (depth fuel : Nat)
    {rest : List Char} (stops : Stops rest) :
    value (fuel + 1) (spelled layout depth document ++ rest) = .ok (document, rest) := by
  cases document with
  | null =>
    rw [spelled, renderAt]
    rfl
  | bool value =>
    rw [spelled, renderAt]
    cases value <;> rfl
  | int number short =>
    rw [spelled, renderAt]
    exact value_int short fuel stops
  | float number =>
    rw [spelled, renderAt]
    exact value_float number fuel stops
  | text _ | array _ | object _ => cases word

theorem stops_nil : Stops [] := by
  intro c member
  cases member

theorem spelled_text (depth : Nat) (text : String) :
    spelled layout depth (.text text) = quotedChars text.toList := by
  rw [spelled, renderAt, toList_quoted]

theorem spelled_array_nil (depth : Nat) : spelled layout depth (.array []) = ['[', ']'] := by
  rw [spelled, renderAt, renderItems]
  simp [enclosed]

theorem spelled_array_cons (depth : Nat) (item : Json) (rest : List Json) :
    spelled layout depth (.array (item :: rest)) =
      '[' :: ((gap layout (depth + 1)).toList ++
        (spelled layout (depth + 1) item ++ itemsAfter layout depth rest)) := by
  rw [spelled, renderAt, renderItems, toList_enclosed, itemsAfter_eq]
  rfl

theorem spelled_object_nil (depth : Nat) :
    spelled layout depth (.object []) = ['\x7b', '\x7d'] := by
  rw [spelled, renderAt, renderMembers]
  simp [enclosed]

theorem spelled_object_cons (depth : Nat) (member : String × Json)
    (rest : List (String × Json)) :
    spelled layout depth (.object (member :: rest)) =
      '\x7b' :: ((gap layout (depth + 1)).toList ++
        (memberText layout (depth + 1) member ++ membersAfter layout depth rest)) := by
  rw [spelled, renderAt, renderMembers, toList_enclosed, membersAfter_eq, memberText]
  simp only [String.toList_append, toList_quoted, List.append_assoc]
  rfl

theorem isSpace_gap (layout : Layout) (depth : Nat) :
    ∀ c ∈ (gap layout depth).toList, isSpace c = true := by
  intro c member
  unfold gap at member
  split at member
  next => cases member
  next =>
    rw [String.toList_ofList] at member
    rcases List.mem_cons.mp member with rfl | blank
    · rfl
    · rw [List.eq_of_mem_replicate blank]
      rfl

theorem skipSpace_blank {blank : List Char} (spaces : ∀ c ∈ blank, isSpace c = true)
    (rest : List Char) : skipSpace (blank ++ rest) = skipSpace rest :=
  List.dropWhile_append_of_pos spaces

/-- A text that begins with something other than white space or a closing bracket. -/
def Begins (text : List Char) : Prop :=
  ∃ c rest, text = c :: rest ∧ isSpace c = false ∧ c ≠ ']' ∧ c ≠ '\x7d'

theorem Begins.skipSpace {text : List Char} (begins : Begins text) (rest : List Char) :
    skipSpace (text ++ rest) = text ++ rest := by
  obtain ⟨c, more, rfl, visible, -, -⟩ := begins
  exact List.dropWhile_cons_of_neg (by simp [visible])

theorem Begins.length_pos {text : List Char} (begins : Begins text) : 0 < text.length := by
  obtain ⟨c, rest, rfl, -⟩ := begins
  exact Nat.succ_pos _

theorem begins_of_isWordChar {c : Char} {rest : List Char} (letter : isWordChar c = true) :
    Begins (c :: rest) := by
  refine ⟨c, rest, rfl, ?_, ?_, ?_⟩
  · by_contra space
    simp only [isSpace, Bool.not_eq_false, Bool.or_eq_true, beq_iff_eq] at space
    rcases space with ((rfl | rfl) | rfl) | rfl <;> cases letter
  all_goals
    rintro rfl
    cases letter

theorem begins_quoted (text rest : List Char) : Begins (quotedChars text ++ rest) :=
  ⟨'\x22', _, rfl, by decide, by decide, by decide⟩

theorem begins_memberText (layout : Layout) (depth : Nat) (member : String × Json) :
    Begins (memberText layout depth member) :=
  begins_quoted member.1.toList _

theorem begins_spelled (layout : Layout) (depth : Nat) (document : Json) :
    Begins (spelled layout depth document) := by
  by_cases word : document.isWord = true
  · obtain ⟨nonempty, letters⟩ := spelled_word layout word depth
    obtain ⟨c, rest, spelling⟩ := List.exists_cons_of_ne_nil nonempty
    rw [spelling]
    exact begins_of_isWordChar (letters c (spelling ▸ List.mem_cons_self))
  · cases document with
    | text text =>
      rw [spelled_text, ← List.append_nil (quotedChars _)]
      exact begins_quoted _ _
    | array items =>
      cases items with
      | nil => exact spelled_array_nil depth ▸ ⟨'[', _, rfl, by decide, by decide, by decide⟩
      | cons item rest =>
        exact spelled_array_cons depth item rest ▸ ⟨'[', _, rfl, by decide, by decide, by decide⟩
    | object members =>
      cases members with
      | nil => exact spelled_object_nil depth ▸ ⟨'\x7b', _, rfl, by decide, by decide, by decide⟩
      | cons member rest =>
        exact spelled_object_cons depth member rest ▸
          ⟨'\x7b', _, rfl, by decide, by decide, by decide⟩
    | null | bool _ | int _ _ | float _ => exact absurd rfl word

theorem stops_of_blank {blank : List Char} (spaces : ∀ c ∈ blank, isSpace c = true) {c : Char}
    (other : isWordChar c = false) (rest : List Char) : Stops (blank ++ c :: rest) := by
  intro d member
  cases blank with
  | nil =>
    cases member
    exact other
  | cons first blank =>
    cases member
    have space := spaces d List.mem_cons_self
    simp only [isSpace, Bool.or_eq_true, beq_iff_eq] at space
    rcases space with ((rfl | rfl) | rfl) | rfl <;> rfl

theorem stops_itemsAfter (separates : layout.Separates) (depth : Nat) (items : List Json)
    (after : List Char) : Stops (itemsAfter layout depth items ++ after) := by
  cases items with
  | nil =>
    rw [itemsAfter, List.append_assoc]
    exact stops_of_blank (isSpace_gap layout depth) rfl after
  | cons item rest =>
    obtain ⟨blank, comma, -⟩ := separates.items
    rw [itemsAfter, comma]
    exact stops_of_blank (List.forall_mem_nil _) rfl _

theorem stops_membersAfter (separates : layout.Separates) (depth : Nat)
    (members : List (String × Json)) (after : List Char) :
    Stops (membersAfter layout depth members ++ after) := by
  cases members with
  | nil =>
    rw [membersAfter, List.append_assoc]
    exact stops_of_blank (isSpace_gap layout depth) rfl after
  | cons member rest =>
    obtain ⟨blank, comma, -⟩ := separates.items
    rw [membersAfter, comma]
    exact stops_of_blank (List.forall_mem_nil _) rfl _

/-- With this fuel the reader takes every document that the fuel is enough for, and goes on
behind it. Two units for each character are enough. -/
structure Reads (layout : Layout) (fuel : Nat) : Prop where
  value : ∀ (document : Json) (depth : Nat) (rest : List Char), Stops rest →
    2 * (spelled layout depth document).length ≤ fuel →
    Json.value fuel (spelled layout depth document ++ rest) =
      .ok (document, rest)
  items : ∀ (item : Json) (others read : List Json) (depth : Nat) (after : List Char),
    2 * (spelled layout (depth + 1) item ++ itemsAfter layout depth others).length ≤ fuel →
    Json.items fuel read
        (spelled layout (depth + 1) item ++ (itemsAfter layout depth others ++ after)) =
      .ok (.array (read.reverse ++ item :: others), after)
  members : ∀ (member : String × Json) (others read : List (String × Json)) (depth : Nat)
    (after : List Char),
    2 * (memberText layout (depth + 1) member ++ membersAfter layout depth others).length ≤ fuel →
    Json.members fuel read
        (memberText layout (depth + 1) member ++ (membersAfter layout depth others ++ after)) =
      .ok (.object (read.reverse ++ member :: others), after)

theorem named?_quote (rest : List Char) : named? ('\x22' :: rest) = none := by
  simp [named?, names, after?]

theorem named?_bracket (rest : List Char) : named? ('[' :: rest) = none := by
  simp [named?, names, after?]

theorem named?_brace (rest : List Char) : named? ('\x7b' :: rest) = none := by
  simp [named?, names, after?]

/-- A quoted text is read with the fuel of what follows its first quote. -/
theorem textBody_rest (text rest : List Char) :
    textBody ((text.flatMap escapeChar ++ '\x22' :: rest).length + 1) []
        (text.flatMap escapeChar ++ '\x22' :: rest) =
      .ok (String.ofList text, rest) := by
  have longer := length_le_escaped text
  apply textBody_quoted
  rw [List.length_append]
  omega

theorem length_itemsAfter_pos (layout : Layout) (depth : Nat) (items : List Json) :
    0 < (itemsAfter layout depth items).length := by
  cases items with
  | nil => simp [itemsAfter]
  | cons item rest =>
    have := (begins_spelled layout (depth + 1) item).length_pos
    rw [itemsAfter, List.length_append, List.length_append, List.length_append]
    omega

theorem length_membersAfter_pos (layout : Layout) (depth : Nat) (members : List (String × Json)) :
    0 < (membersAfter layout depth members).length := by
  cases members with
  | nil => simp [membersAfter]
  | cons member rest =>
    have := (begins_memberText layout (depth + 1) member).length_pos
    rw [membersAfter, List.length_append, List.length_append, List.length_append]
    omega

theorem value_array (fuel : Nat) {blank : List Char} (spaces : ∀ c ∈ blank, isSpace c = true)
    {text : List Char} (begins : Begins text) (after : List Char) :
    value (fuel + 1) ('[' :: (blank ++ (text ++ after))) = items fuel [] (text ++ after) := by
  obtain ⟨c, rest, rfl, visible, bracket, brace⟩ := begins
  rw [value, named?_bracket]
  simp only [skipSpace_blank spaces, Begins.skipSpace ⟨c, rest, rfl, visible, bracket, brace⟩]
  split
  next same => exact absurd (List.cons.inj same).1 bracket
  next => rfl

theorem value_object (fuel : Nat) {blank : List Char} (spaces : ∀ c ∈ blank, isSpace c = true)
    {text : List Char} (begins : Begins text) (after : List Char) :
    value (fuel + 1) ('\x7b' :: (blank ++ (text ++ after))) = members fuel [] (text ++ after) := by
  obtain ⟨c, rest, rfl, visible, bracket, brace⟩ := begins
  rw [value, named?_brace]
  simp only [skipSpace_blank spaces, Begins.skipSpace ⟨c, rest, rfl, visible, bracket, brace⟩]
  split
  next same => exact absurd (List.cons.inj same).1 brace
  next => rfl

section Steps

variable {fuel : Nat} (reads : Reads layout fuel)

include reads

theorem value_step (document : Json) (depth : Nat) {rest : List Char} (stops : Stops rest)
    (room : 2 * (spelled layout depth document).length ≤ fuel + 1) :
    value (fuel + 1) (spelled layout depth document ++ rest) =
      .ok (document, rest) := by
  -- a word is told by all its letters and by where it stops, the rest by the first character
  by_cases word : document.isWord = true
  · exact value_word word depth fuel stops
  · cases document with
    | text text =>
      rw [spelled_text, quotedChars_append, value, named?_quote]
      simp only [textBody_rest, String.ofList_toList]
      rfl
    | array items =>
      cases items with
      | nil =>
        rw [spelled_array_nil, List.cons_append, value, named?_bracket]
        rfl
      | cons item others =>
        rw [spelled_array_cons] at room ⊢
        simp only [List.length_cons, List.length_append] at room
        rw [List.cons_append, List.append_assoc, List.append_assoc,
          value_array fuel (isSpace_gap layout (depth + 1)) (begins_spelled layout (depth + 1) item),
          reads.items item others [] depth rest (by rw [List.length_append]; omega)]
        rfl
    | object members =>
      cases members with
      | nil =>
        rw [spelled_object_nil, List.cons_append, value, named?_brace]
        rfl
      | cons member others =>
        rw [spelled_object_cons] at room ⊢
        simp only [List.length_cons, List.length_append] at room
        rw [List.cons_append, List.append_assoc, List.append_assoc,
          value_object fuel (isSpace_gap layout (depth + 1)) (begins_memberText layout (depth + 1) member),
          reads.members member others [] depth rest (by rw [List.length_append]; omega)]
        rfl
    | null | bool _ | int _ _ | float _ => exact absurd rfl word

variable (separates : layout.Separates)

include separates

theorem items_step (item : Json) (others read : List Json) (depth : Nat) (after : List Char)
    (room : 2 * (spelled layout (depth + 1) item ++ itemsAfter layout depth others).length ≤
      fuel + 1) :
    items (fuel + 1) read
        (spelled layout (depth + 1) item ++ (itemsAfter layout depth others ++ after)) =
      .ok (.array (read.reverse ++ item :: others), after) := by
  -- what follows the item is not empty, which pays for this turn beside the item itself
  have positive := length_itemsAfter_pos layout depth others
  rw [List.length_append] at room
  rw [items, reads.value item (depth + 1) _ (stops_itemsAfter separates depth others after)
    (by omega), ok_bind]
  dsimp only
  cases others with
  | nil =>
    rw [itemsAfter, List.append_assoc, skipSpace_blank (isSpace_gap layout depth)]
    change Except.ok (Json.array (item :: read).reverse, after) = _
    rw [List.reverse_cons]
  | cons next others =>
    obtain ⟨blank, comma, spaces⟩ := separates.items
    rw [itemsAfter, comma] at room
    rw [itemsAfter, comma]
    simp only [List.length_cons, List.length_append] at room
    change items fuel (item :: read) (skipSpace ((blank ++ _) ++ after)) = _
    rw [List.append_assoc, skipSpace_blank spaces, List.append_assoc,
      skipSpace_blank (isSpace_gap layout (depth + 1)), List.append_assoc,
      (begins_spelled layout (depth + 1) next).skipSpace]
    rw [reads.items next others (item :: read) depth after
      (by rw [List.length_append]; omega), List.reverse_cons, List.append_assoc]
    rfl

theorem members_step (member : String × Json) (others read : List (String × Json)) (depth : Nat)
    (after : List Char)
    (room : 2 * (memberText layout (depth + 1) member ++
      membersAfter layout depth others).length ≤ fuel + 1) :
    members (fuel + 1) read
        (memberText layout (depth + 1) member ++ (membersAfter layout depth others ++ after)) =
      .ok (.object (read.reverse ++ member :: others), after) := by
  obtain ⟨key, document⟩ := member
  obtain ⟨blank, colon, spaces⟩ := separates.keys
  have positive := length_membersAfter_pos layout depth others
  rw [memberText, colon, List.length_append, List.length_append] at room
  simp only [quotedChars, List.length_cons, List.length_append] at room
  rw [memberText, colon, List.append_assoc, quotedChars_append, members]
  simp only [textBody_rest, String.ofList_toList]
  have stands (more : List Char) : skipSpace (':' :: more) = ':' :: more := rfl
  rw [ok_bind]
  simp only [List.cons_append, stands]
  rw [List.append_assoc, skipSpace_blank spaces, (begins_spelled layout (depth + 1) document).skipSpace,
    reads.value document (depth + 1) _ (stops_membersAfter separates depth others after)
    (by omega), ok_bind]
  dsimp only
  cases others with
  | nil =>
    rw [membersAfter, List.append_assoc, skipSpace_blank (isSpace_gap layout depth)]
    change Except.ok (Json.object ((key, document) :: read).reverse, after) = _
    rw [List.reverse_cons]
  | cons next others =>
    obtain ⟨blank, comma, spaces⟩ := separates.items
    rw [membersAfter, comma] at room
    rw [membersAfter, comma]
    simp only [List.length_cons, List.length_append] at room
    change members fuel ((key, document) :: read) (skipSpace ((blank ++ _) ++ after)) = _
    rw [List.append_assoc, skipSpace_blank spaces, List.append_assoc,
      skipSpace_blank (isSpace_gap layout (depth + 1)), List.append_assoc,
      (begins_memberText layout (depth + 1) next).skipSpace,
      reads.members next others ((key, document) :: read) depth after
      (by rw [List.length_append]; omega), List.reverse_cons, List.append_assoc]
    rfl

end Steps

/-- Every step of the reader uses up one unit of fuel. -/
theorem reads_all (separates : layout.Separates) (fuel : Nat) : Reads layout fuel := by
  induction fuel with
  | zero =>
    refine ⟨?_, ?_, ?_⟩
    · intro document depth rest stops room
      have := (begins_spelled layout depth document).length_pos
      omega
    · intro item others read depth after room
      have := (begins_spelled layout (depth + 1) item).length_pos
      rw [List.length_append] at room
      omega
    · intro member others read depth after room
      have := (begins_memberText layout (depth + 1) member).length_pos
      rw [List.length_append] at room
      omega
  | succ fuel reads =>
    exact ⟨value_step reads, items_step reads separates, members_step reads separates⟩

/-- A written document is read back, whatever its layout. -/
theorem parse_render (separates : layout.Separates) (document : Json) :
    parse (render layout document) = .ok document := by
  have start : skipSpace (render layout document).toList = spelled layout 0 document := by
    have := (begins_spelled layout 0 document).skipSpace []
    rwa [List.append_nil] at this
  have whole := (reads_all separates (2 * (spelled layout 0 document).length + 2)).value document 0
    [] stops_nil (Nat.le_add_right _ 2)
  rw [List.append_nil] at whole
  rw [parse, start]
  dsimp only
  rw [whole]
  rfl

/-- Documents with one text are equal. -/
theorem render_injective (separates : layout.Separates) {left right : Json}
    (same : render layout left = render layout right) : left = right := by
  have read := parse_render separates left
  rw [same, parse_render separates right] at read
  exact (Except.ok.inj read).symm

end BuildRules.Json
