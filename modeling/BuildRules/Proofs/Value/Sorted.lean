import BuildRules.Proofs.Returns
import BuildRules.Value.Sorted
import Mathlib.Data.List.Sort

namespace BuildRules.Sorted

variable {α β ε : Type}

theorem perm_of_insertChecked {before : α → α → Except ε Bool} {item : α} {items sorted : List α}
    (placed : insertChecked before item items = .ok sorted) : sorted.Perm (item :: items) := by
  induction items generalizing sorted with
  | nil =>
    cases placed
    exact .refl _
  | cons head rest ih =>
    rw [insertChecked] at placed
    obtain ⟨first, -, placed⟩ := bind_eq_ok.mp placed
    split at placed
    next =>
      cases placed
      exact .refl _
    next =>
      obtain ⟨later, inside, placed⟩ := bind_eq_ok.mp placed
      cases placed
      exact ((ih inside).cons head).trans (.swap item head rest)

/-- Where all the comparisons have an answer, the items are only rearranged. -/
theorem perm_of_sortChecked {before : α → α → Except ε Bool} {items sorted : List α}
    (placed : sortChecked before items = .ok sorted) : sorted.Perm items := by
  have grown : ∀ (rest front whole : List α),
      rest.foldlM (fun sorted item => insertChecked before item sorted) front = .ok whole →
      whole.Perm (rest ++ front) := by
    intro rest
    induction rest with
    | nil =>
      intro front whole placed
      cases placed
      exact .refl _
    | cons item rest ih =>
      intro front whole placed
      rw [List.foldlM_cons] at placed
      obtain ⟨next, inside, placed⟩ := bind_eq_ok.mp placed
      have moved := (perm_of_insertChecked inside).append_left rest
      exact (ih next whole placed).trans (moved.trans List.perm_middle)
  have whole := grown items [] sorted placed
  rwa [List.append_nil] at whole

theorem insertChecked_last {before : α → α → Except ε Bool} {item : α} {items : List α}
    (later : ∀ other ∈ items, before item other = .ok false) :
    insertChecked before item items = .ok (items ++ [item]) := by
  induction items with
  | nil => rfl
  | cons head rest ih =>
    obtain ⟨first, later⟩ := List.forall_mem_cons.mp later
    rw [insertChecked, first, ih later]
    rfl

theorem sortChecked_of_ascending {before : α → α → Except ε Bool} {items : List α}
    (ascending : items.Pairwise fun earlier later => before later earlier = .ok false) :
    sortChecked before items = .ok items := by
  have placed : ∀ (sorted rest : List α),
      ((sorted ++ rest).Pairwise fun earlier later => before later earlier = .ok false) →
      rest.foldlM (fun sorted item => insertChecked before item sorted) sorted =
        .ok (sorted ++ rest) := by
    intro sorted rest ascending
    induction rest generalizing sorted with
    | nil => rw [List.append_nil]; rfl
    | cons item rest ih =>
      have last : ∀ other ∈ sorted, before item other = .ok false := by
        intro other member
        exact (List.pairwise_append.mp ascending).2.2 other member item List.mem_cons_self
      have shape : sorted ++ item :: rest = sorted ++ [item] ++ rest := by simp
      rw [shape] at ascending ⊢
      rw [List.foldlM_cons, insertChecked_last last]
      exact ih (sorted ++ [item]) ascending
  exact placed [] items ascending

theorem insertChecked_map (before : β → β → Except ε Bool) (image : α → β) (item : α)
    (items : List α) : insertChecked before (image item) (items.map image) =
      (insertChecked (fun left right => before (image left) (image right)) item items).map
        (List.map image) := by
  induction items with
  | nil => rfl
  | cons head rest ih =>
    rw [List.map_cons, insertChecked, insertChecked, ih]
    cases before (image item) (image head) with
    | error fault => rfl
    | ok first =>
      cases first with
      | true => rfl
      | false =>
        cases insertChecked (fun left right => before (image left) (image right)) item rest <;> rfl

theorem sortChecked_map (before : β → β → Except ε Bool) (image : α → β) (items : List α) :
    sortChecked before (items.map image) =
      (sortChecked (fun left right => before (image left) (image right)) items).map
        (List.map image) := by
  have mapped : ∀ sorted : List α, (items.map image).foldlM
      (fun sorted item => insertChecked before item sorted) (sorted.map image) =
      (items.foldlM (fun sorted item => insertChecked
        (fun left right => before (image left) (image right)) item sorted) sorted).map
        (List.map image) := by
    induction items with
    | nil => intro sorted; rfl
    | cons item rest ih =>
      intro sorted
      rw [List.map_cons, List.foldlM_cons, List.foldlM_cons, insertChecked_map]
      cases insertChecked (fun left right => before (image left) (image right)) item sorted with
      | error fault => rfl
      | ok next => exact ih next
  exact mapped []

section Total

variable {le : α → α → Prop} [DecidableRel le] {before : α → α → Except ε Bool}

/-- An item is put behind all that it does not come strictly before. -/
theorem insertChecked_eq_orderedInsert
    (decided : ∀ left right, before left right = .ok (decide (¬ le right left))) (item : α)
    (items : List α) : insertChecked before item items =
      .ok (items.orderedInsert (fun left right => ¬ le right left) item) := by
  induction items with
  | nil => rfl
  | cons head rest ih =>
    rw [insertChecked, decided, ih, List.orderedInsert_cons]
    by_cases order : le head item
    · rw [if_neg (not_not_intro order), decide_eq_false (not_not_intro order)]
      rfl
    · rw [if_pos order, decide_eq_true order]
      rfl

theorem foldlM_insertChecked
    (decided : ∀ left right, before left right = .ok (decide (¬ le right left)))
    (sorted items : List α) :
    items.foldlM (fun sorted item => insertChecked before item sorted) sorted =
      .ok (items.foldl (fun sorted item =>
        sorted.orderedInsert (fun left right => ¬ le right left) item) sorted) := by
  induction items generalizing sorted with
  | nil => rfl
  | cons item rest ih =>
    rw [List.foldlM_cons, insertChecked_eq_orderedInsert decided]
    exact ih _

variable [Std.Total le] [IsTrans α le]

/-- One item goes before its equals and one behind them. -/
theorem orderedInsert_comm (first last : α) (items : List α) :
    (items.orderedInsert (fun left right => ¬ le right left) last).orderedInsert le first =
      (items.orderedInsert le first).orderedInsert (fun left right => ¬ le right left) last := by
  induction items with
  | nil =>
    by_cases order : le first last
    · simp [order]
    · simp [order]
  | cons head rest ih =>
    simp only [List.orderedInsert_cons]
    by_cases ahead : le first head
    · by_cases behind : le head last
      · have order : le first last := IsTrans.trans _ _ _ ahead behind
        simp [ahead, behind, order]
      · by_cases order : le first last
        · simp [ahead, behind, order]
        · simp [ahead, behind, order]
    · by_cases behind : le head last
      · simp [ahead, behind, ih]
      · have order : ¬ le first last := by
          intro order
          have swapped := (Std.Total.total first head).resolve_left ahead
          exact behind (IsTrans.trans _ _ _ swapped order)
        simp [ahead, behind, order]

theorem foldl_orderedInsert (first : α) (sorted items : List α) :
    items.foldl (fun sorted item =>
        sorted.orderedInsert (fun left right => ¬ le right left) item)
      (sorted.orderedInsert le first) =
    (items.foldl (fun sorted item =>
        sorted.orderedInsert (fun left right => ¬ le right left) item) sorted).orderedInsert le
      first := by
  induction items generalizing sorted with
  | nil => rfl
  | cons item rest ih =>
    rw [List.foldl_cons, List.foldl_cons, ← orderedInsert_comm]
    exact ih _

/-- Items put in from the front, each behind its equals, come in the order of the stable sort. -/
theorem sortChecked_eq_insertionSort
    (decided : ∀ left right, before left right = .ok (decide (¬ le right left)))
    (items : List α) : sortChecked before items = .ok (items.insertionSort le) := by
  have sorted : items.foldl (fun sorted item =>
      sorted.orderedInsert (fun left right => ¬ le right left) item) [] =
      items.insertionSort le := by
    induction items with
    | nil => rfl
    | cons item rest ih =>
      rw [List.foldl_cons, List.insertionSort_cons, ← ih]
      exact foldl_orderedInsert item [] rest
  rw [sortChecked, foldlM_insertChecked decided, sorted]

end Total
end BuildRules.Sorted
