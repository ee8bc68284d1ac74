import Mathlib.Data.List.Forall2

namespace BuildRules

section OneRelation

variable {α β : Type} {first second : α → β → Prop} {items front back : List α} {results : List β}

theorem forall₂_congr_left (same : ∀ item ∈ items, ∀ result, first item result ↔ second item result) :
    List.Forall₂ first items results ↔ List.Forall₂ second items results := by
  induction items generalizing results with
  | nil => simp
  | cons item items ih =>
    obtain ⟨head, later⟩ := List.forall_mem_cons.mp same
    cases results with
    | nil => simp
    | cons result results => simp only [List.forall₂_cons, head, ih later]

theorem forall₂_append_left : List.Forall₂ first (front ++ back) results ↔
    ∃ fronts backs, List.Forall₂ first front fronts ∧ List.Forall₂ first back backs ∧
      results = fronts ++ backs := by
  constructor
  · intro parts
    refine ⟨results.take front.length, results.drop front.length, ?_, ?_, ?_⟩
    · simpa using List.forall₂_take front.length parts
    · simpa using List.forall₂_drop front.length parts
    · exact (List.take_append_drop _ _).symm
  · rintro ⟨fronts, backs, before, after, rfl⟩
    exact List.rel_append before after

theorem exists_forall₂ (each : ∀ item ∈ items, ∃ result, first item result) :
    ∃ results, List.Forall₂ first items results := by
  induction items with
  | nil => exact ⟨[], .nil⟩
  | cons item items ih =>
    obtain ⟨⟨result, head⟩, later⟩ := List.forall_mem_cons.mp each
    obtain ⟨results, parts⟩ := ih later
    exact ⟨result :: results, .cons head parts⟩

theorem exists_of_forall₂ (parts : List.Forall₂ first items results) {item : α}
    (member : item ∈ items) : ∃ result ∈ results, first item result := by
  induction parts with
  | nil => cases member
  | @cons head result items results holds _ ih =>
    rcases List.mem_cons.mp member with rfl | member
    · exact ⟨result, List.mem_cons_self, holds⟩
    · obtain ⟨other, present, related⟩ := ih member
      exact ⟨other, List.mem_cons_of_mem _ present, related⟩

theorem forall₂_imp_mem (parts : List.Forall₂ first items results)
    (imp : ∀ item ∈ items, ∀ result ∈ results, first item result → second item result) :
    List.Forall₂ second items results := by
  induction parts with
  | nil => exact .nil
  | cons head _ ih =>
    obtain ⟨whole, later⟩ := List.forall_mem_cons.mp imp
    refine .cons (whole _ List.mem_cons_self head) (ih fun item member result present => ?_)
    exact later item member result (List.mem_cons_of_mem _ present)

theorem forall₂_through {γ : Type} {lower : α → β → Prop} {upper : β → γ → Prop}
    {across : α → γ → Prop} {tops : List γ} (lowers : List.Forall₂ lower items results)
    (uppers : List.Forall₂ upper results tops)
    (compose : ∀ item ∈ items, ∀ result, lower item result → ∀ top, upper result top →
      across item top) : List.Forall₂ across items tops := by
  induction lowers generalizing tops with
  | nil =>
    cases uppers
    exact .nil
  | @cons item result items results holds _ ih =>
    obtain ⟨top, tops, above, rest, rfl⟩ := List.forall₂_cons_left_iff.mp uppers
    obtain ⟨head, later⟩ := List.forall_mem_cons.mp compose
    exact .cons (head result holds top above) (ih rest later)

end OneRelation

section CommonImages

variable {α β γ : Type} {first : α → γ → Prop} {second : β → γ → Prop} {pair : α → β → Prop}
  {items : List α} {others : List β} {images : List γ}

theorem exists_common_images (pairs : List.Forall₂ pair items others)
    (common : ∀ item ∈ items, ∀ other ∈ others, pair item other →
      ∃ image, first item image ∧ second other image) :
    ∃ images, List.Forall₂ first items images ∧ List.Forall₂ second others images := by
  induction pairs with
  | nil => exact ⟨[], .nil, .nil⟩
  | @cons item other items others head _ ih =>
    obtain ⟨image, left, right⟩ := common item List.mem_cons_self other List.mem_cons_self head
    obtain ⟨images, lefts, rights⟩ := ih fun item member other present =>
      common item (List.mem_cons_of_mem _ member) other (List.mem_cons_of_mem _ present)
    exact ⟨image :: images, .cons left lefts, .cons right rights⟩

end CommonImages
end BuildRules
