import BuildRules.Proofs.Config.Layers

namespace BuildRules.Config

open Value Entries

/-- A layer that leaves again what it has left. -/
def Repeats (layer : Value) : Prop :=
  ∀ key old result, Keyed old → overlayValue key old layer = .ok result →
    overlayValue key result layer = .ok result

section Unchanged

variable {base layer result : Record} {key : Scalar} {old value : Value}

/-- Nothing is added where every key of the layer is there already. -/
theorem added_eq_nil (known : ∀ entry ∈ layer, has base entry.1 = true) : added base layer = [] :=
  List.filter_eq_nil_iff.mpr fun entry member => by simp [known entry member]

theorem has_of_mem {entry : Scalar × Value} (member : entry ∈ layer) : has layer entry.1 = true := by
  rw [has_eq_any, List.any_eq_true]
  exact ⟨entry, member, Scalar.same_refl entry.1⟩

/-- A layer that keeps every entry of a base which has all its keys leaves the base as it is. -/
theorem overlaid_self (known : ∀ entry ∈ layer, has base entry.1 = true)
    (each : ∀ entry ∈ base, KeptAt layer entry.1 entry.2 entry.2) : Overlaid base layer base := by
  refine ⟨base, ?_, ?_⟩
  · exact List.forall₂_same.mpr fun entry member => ⟨rfl, each entry member⟩
  · rw [added_eq_nil known, List.append_nil]

/-- A value laid over itself. At each key it meets its own part. -/
theorem overlayValue_self (keyed : Keyed value) : overlayValue key value value = .ok value := by
  induction value using byParts generalizing key with
  | scalar leaf => exact overlayValue_scalar_eq_ok.mpr ⟨rfl, rfl⟩
  | list items => exact overlayValue_list items
  | map entries ih =>
    obtain ⟨apart, parts⟩ := keyed.entries
    have overlaid : Overlaid entries entries entries := by
      refine overlaid_self (fun entry member => has_of_mem member) ?_
      intro entry member
      have here := find?_of_mem apart member (Scalar.same_refl entry.1)
      simp only [KeptAt, here]
      exact ih entry member (parts entry member)
    exact overlayValue_map_eq_ok.mpr
      ⟨entries, entries, rfl, rfl, (overlayEntries_eq_ok apart apart).mpr overlaid⟩

theorem KeptAt.again (each : ∀ entry ∈ layer, Repeats entry.2) (oldKeyed : Keyed old)
    (kept : KeptAt layer key old value) : KeptAt layer key value value := by
  cases found : find? layer key with
  | none => simp [KeptAt, found]
  | some top =>
    obtain ⟨candidate, member, -⟩ := exists_of_find? found
    have laid : overlayValue key old top = .ok value := by simpa [KeptAt, found] using kept
    simpa [KeptAt, found] using each (candidate, top) member key old value oldKeyed laid

/-- An entry of the result is one of the base that was kept, or one that the layer added. The first
is kept again, and the second meets itself. -/
theorem Overlaid.again (baseKeyed : Keyed (.map base)) (layerKeyed : Keyed (.map layer))
    (each : ∀ entry ∈ layer, Repeats entry.2) (overlaid : Overlaid base layer result) :
    Overlaid result layer result := by
  obtain ⟨kept, parts, rfl⟩ := overlaid
  obtain ⟨layerApart, layerParts⟩ := layerKeyed.entries
  refine overlaid_self ?_ ?_
  · intro entry member
    have somewhere : has (kept ++ added base layer) entry.1 =
        (has kept entry.1 || has (added base layer) entry.1) := by
      simp [has, find?_append]
    rw [somewhere, has_kept parts, has_added, has_of_mem member]
    cases has base entry.1 <;> rfl
  · intro entry member
    rcases List.mem_append.mp member with old | new
    · obtain ⟨source, present, same, left⟩ := exists_of_forall₂ parts.flip old
      rw [same]
      exact left.again each (baseKeyed.entries.2 source present)
    · have present : entry ∈ layer := List.mem_of_mem_filter new
      have here := find?_of_mem layerApart present (Scalar.same_refl entry.1)
      simp only [KeptAt, here]
      exact overlayValue_self (layerParts entry present)

end Unchanged

theorem repeats {layer : Value} (keyed : Keyed layer) : Repeats layer := by
  induction layer using byParts with
  | scalar leaf =>
    intro key old result _ laid
    obtain ⟨-, rfl⟩ := overlayValue_scalar_eq_ok.mp laid
    exact overlayValue_self keyed
  | list items =>
    intro key old result _ laid
    rw [overlayValue_list] at laid ⊢
    exact laid
  | map layer ih =>
    intro key old result oldKeyed laid
    obtain ⟨base, merged, rfl, rfl, merges⟩ := overlayValue_map_eq_ok.mp laid
    obtain ⟨baseApart, -⟩ := oldKeyed.entries
    obtain ⟨layerApart, layerParts⟩ := keyed.entries
    have overlaid := (overlayEntries_eq_ok baseApart layerApart).mp merges
    have mergedApart := overlaid.apart baseApart layerApart
    have again := overlaid.again oldKeyed keyed
      fun entry member => ih entry member (layerParts entry member)
    exact overlayValue_map_eq_ok.mpr
      ⟨merged, merged, rfl, rfl, (overlayEntries_eq_ok mergedApart layerApart).mpr again⟩

/-- A layer that could be laid over a base can be laid over the result, and changes nothing of it,
neither the type of a value nor the order of keys. Every map can be laid over itself. -/
theorem overlay_repeats {base layer : Record} (baseKeyed : Keyed (.map base))
    (layerKeyed : Keyed (.map layer)) :
    (∀ result, overlay (.map base) (.map layer) = .ok result →
      overlay result (.map layer) = .ok result) ∧
    overlay (.map base) (.map base) = .ok (.map base) := by
  constructor
  · intro result laid
    obtain ⟨merged, rfl, -⟩ := overlay_eq_ok.mp laid
    rw [overlay_maps .null] at laid ⊢
    exact repeats layerKeyed .null _ _ baseKeyed laid
  · rw [overlay_maps .null]
    exact overlayValue_self baseKeyed

def tuned : Record :=
  [(.float .nan, .text "one"), (.text "lints", .ofFields [("style", .text "warn")])]

def retuned : Record :=
  [(.text "lints", .ofTexts []), (.float .nan, .text "first"), (.int 1, .null)]

def replaced : Record :=
  [(.float .nan, .text "first"), (.text "lints", .ofTexts []), (.int 1, .null)]

theorem retuned_repeats :
    Keyed (.map tuned) ∧ Keyed (.map retuned) ∧
      overlay (.map tuned) (.map retuned) = .ok (.map replaced) ∧
      overlay (.map replaced) (.map retuned) = .ok (.map replaced) := by
  have tunedKeyed : Keyed (.map tuned) := by
    apply Keyed.map
    · unfold Apart
      decide
    · simp only [tuned, List.forall_mem_cons]
      exact ⟨.scalar _, (plain_ofFields (by decide) (by simp [Plain.scalar])).keyed, by simp⟩
  have retunedKeyed : Keyed (.map retuned) := by
    apply Keyed.map
    · unfold Apart
      decide
    · simp only [retuned, List.forall_mem_cons]
      exact ⟨(plain_ofTexts []).keyed, .scalar _, .scalar _, by simp⟩
  have laid : overlay (.map tuned) (.map retuned) = .ok (.map replaced) := rfl
  exact ⟨tunedKeyed, retunedKeyed, laid,
    (overlay_repeats tunedKeyed retunedKeyed).1 _ laid⟩

end BuildRules.Config
