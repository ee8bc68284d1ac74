import Mathlib.Data.List.Basic

namespace BuildRules

inductive First {α : Type} (sought : α → Prop) : List α → α → Prop where
  | here {item : α} {rest : List α} (hit : sought item) : First sought (item :: rest) item
  | later {item found : α} {rest : List α} (miss : ¬ sought item)
      (further : First sought rest found) : First sought (item :: rest) found

variable {α β : Type} {sought other : α → Prop} {items front back : List α} {item found : α}

theorem first_cons_iff : First sought (item :: items) found ↔
    (sought item ∧ found = item) ∨ (¬ sought item ∧ First sought items found) := by
  constructor
  · intro first
    cases first with
    | here hit => exact .inl ⟨hit, rfl⟩
    | later miss further => exact .inr ⟨miss, further⟩
  · rintro (⟨hit, rfl⟩ | ⟨miss, further⟩)
    · exact .here hit
    · exact .later miss further

theorem First.mem (first : First sought items found) : found ∈ items := by
  induction first with
  | here => exact List.mem_cons_self
  | later _ _ ih => exact List.mem_cons_of_mem _ ih

theorem First.hit (first : First sought items found) : sought found := by
  induction first with
  | here hit => exact hit
  | later _ _ ih => exact ih

theorem exists_first (present : ∃ item ∈ items, sought item) : ∃ found, First sought items found := by
  induction items with
  | nil => simp at present
  | cons item items ih =>
    by_cases hit : sought item
    · exact ⟨item, .here hit⟩
    · obtain ⟨other, member, satisfied⟩ := present
      rcases List.mem_cons.mp member with rfl | member
      · exact absurd satisfied hit
      · obtain ⟨found, first⟩ := ih ⟨other, member, satisfied⟩
        exact ⟨found, .later hit first⟩

theorem first_congr (same : ∀ item ∈ items, sought item ↔ other item) :
    First sought items found ↔ First other items found := by
  induction items with
  | nil =>
    constructor
    · intro first
      cases first
    · intro first
      cases first
  | cons item items ih =>
    obtain ⟨head, later⟩ := List.forall_mem_cons.mp same
    rw [first_cons_iff, first_cons_iff, head, ih later]

theorem find?_eq_some_iff_first {test : α → Bool} :
    items.find? test = some found ↔ First (fun item => test item = true) items found := by
  induction items with
  | nil =>
    constructor
    · intro hit
      cases hit
    · intro first
      cases first
  | cons item items ih =>
    rw [List.find?_cons, first_cons_iff, ← ih]
    cases test item with
    | true => simp [eq_comm]
    | false => simp

theorem first_append : First sought (front ++ back) found ↔
    First sought front found ∨ ((∀ item ∈ front, ¬ sought item) ∧ First sought back found) := by
  induction front with
  | nil =>
    have none : ¬ First sought [] found := fun first => by cases first
    simp [none]
  | cons item front ih =>
    rw [List.cons_append, first_cons_iff, first_cons_iff, ih, List.forall_mem_cons]
    tauto

theorem first_map {step : β → α} {sources : List β} : First sought (sources.map step) found ↔
    ∃ source, First (fun source => sought (step source)) sources source ∧ found = step source := by
  induction sources with
  | nil =>
    constructor
    · intro first
      cases first
    · rintro ⟨source, first, -⟩
      cases first
  | cons source sources ih =>
    rw [List.map_cons, first_cons_iff, ih]
    constructor
    · rintro (⟨hit, rfl⟩ | ⟨miss, other, first, rfl⟩)
      · exact ⟨source, .here hit, rfl⟩
      · exact ⟨other, .later miss first, rfl⟩
    · rintro ⟨other, first, rfl⟩
      cases first with
      | here hit => exact .inl ⟨hit, rfl⟩
      | later miss first => exact .inr ⟨miss, other, first, rfl⟩

/-- The first item among those of many lists is the first of the first list that has one. -/
theorem first_flatMap {step : β → List α} {sources : List β} :
    First sought (sources.flatMap step) found ↔
      ∃ source, First (fun source => ∃ item ∈ step source, sought item) sources source ∧
        First sought (step source) found := by
  induction sources with
  | nil =>
    constructor
    · intro first
      cases first
    · rintro ⟨source, first, -⟩
      cases first
  | cons source sources ih =>
    rw [List.flatMap_cons, first_append, ih]
    constructor
    · rintro (first | ⟨misses, other, first, inside⟩)
      · exact ⟨source, .here ⟨found, first.mem, first.hit⟩, first⟩
      · refine ⟨other, .later ?_ first, inside⟩
        rintro ⟨item, member, hit⟩
        exact misses item member hit
    · rintro ⟨other, first, inside⟩
      cases first with
      | here hit => exact .inl inside
      | later miss first =>
        refine .inr ⟨?_, other, first, inside⟩
        intro item member hit
        exact miss ⟨item, member, hit⟩

theorem eraseDups_append_singleton (names : List String) (name : String) :
    (names ++ [name]).eraseDups =
      if name ∈ names then names.eraseDups else names.eraseDups ++ [name] := by
  rw [List.eraseDups_append, List.removeAll]
  by_cases earlier : name ∈ names
  · simp [earlier]
  · simp [earlier, List.eraseDups_cons]

end BuildRules
