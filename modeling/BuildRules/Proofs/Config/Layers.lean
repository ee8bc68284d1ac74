import BuildRules.Proofs.Config.Overlay

namespace BuildRules.Config

open Value Entries

def Regroups (top : Value) : Prop :=
  ∀ key base middle both all, Keyed base → Keyed middle →
    overlayValue key base middle = .ok both → overlayValue key both top = .ok all →
    ∃ joined, overlayValue key middle top = .ok joined ∧ overlayValue key base joined = .ok all

section Regrouping

variable {base middle layer both all : Record} {key : Scalar} {old value held left : Value}

theorem KeptAt.regroups (each : ∀ entry ∈ layer, Regroups entry.2) (oldKeyed : Keyed old)
    (valueKeyed : Keyed value) (present : find? middle key = some value)
    (inner : KeptAt middle key old held) (outer : KeptAt layer key held left) :
    ∃ joined, KeptAt layer key value joined ∧ overlayValue key old joined = .ok left := by
  have laid : overlayValue key old value = .ok held := by simpa [KeptAt, present] using inner
  cases found : find? layer key with
  | none =>
    have same : left = held := by simpa [KeptAt, found] using outer
    exact ⟨value, by simp [KeptAt, found], same ▸ laid⟩
  | some top =>
    have upper : overlayValue key held top = .ok left := by simpa [KeptAt, found] using outer
    obtain ⟨candidate, member, -⟩ := exists_of_find? found
    obtain ⟨joined, first, second⟩ :=
      each (candidate, top) member key old value held left oldKeyed valueKeyed laid upper
    exact ⟨joined, by simpa [KeptAt, found] using first, second⟩

/-- Whatever has been laid over a base can be laid over the layer below it. -/
theorem exists_merged {kept twice fresh : Record} (baseKeyed : Keyed (.map base))
    (middleKeyed : Keyed (.map middle)) (each : ∀ entry ∈ layer, Regroups entry.2)
    (inBase : List.Forall₂ (Kept middle) base kept) (again : List.Forall₂ (Kept layer) kept twice)
    (onAdded : List.Forall₂ (Kept layer) (added base middle) fresh) :
    ∃ merged, List.Forall₂ (Kept layer) middle merged := by
  apply exists_forall₂
  intro entry member
  cases present : find? base entry.1 with
  | none =>
    have new : entry ∈ added base middle := List.mem_filter.mpr ⟨member, by simp [has, present]⟩
    obtain ⟨result, -, held⟩ := exists_of_forall₂ onAdded new
    exact ⟨result, held⟩
  | some old =>
    have here := find?_of_mem middleKeyed.entries.1 member (Scalar.same_refl _)
    obtain ⟨held, found, inner⟩ := find?_kept_present inBase present
    obtain ⟨left, -, outer⟩ := find?_kept_present again found
    obtain ⟨joined, merged, -⟩ := KeptAt.regroups each (baseKeyed.of_find? present)
      (middleKeyed.entries.2 entry member) here inner outer
    exact ⟨(entry.1, joined), rfl, merged⟩

/-- An entry that two layers leave in turn is what the merged layer leaves of it. -/
theorem KeptAt.through {merged : Record} (middleKeyed : Keyed (.map middle))
    (each : ∀ entry ∈ layer, Regroups entry.2) (inMiddle : List.Forall₂ (Kept layer) middle merged)
    (oldKeyed : Keyed old) (inner : KeptAt middle key old held) (outer : KeptAt layer key held left) :
    KeptAt (merged ++ added middle layer) key old left := by
  cases present : find? middle key with
  | none =>
    have same : held = old := by simpa [KeptAt, present] using inner
    rw [KeptAt, find?_append, find?_kept_absent inMiddle present, find?_added present,
      Option.none_or, ← same]
    exact outer
  | some value =>
    obtain ⟨joined, found, result⟩ := find?_kept_present inMiddle present
    obtain ⟨other, joins, laid⟩ := KeptAt.regroups each oldKeyed (middleKeyed.of_find? present)
      present inner outer
    rw [KeptAt, find?_append, found, Option.some_or, KeptAt.unique result joins]
    exact laid

theorem overlaid_regroups (baseKeyed : Keyed (.map base)) (middleKeyed : Keyed (.map middle))
    (each : ∀ entry ∈ layer, Regroups entry.2) (inner : Overlaid base middle both)
    (outer : Overlaid both layer all) :
    ∃ joined, Overlaid middle layer joined ∧ Overlaid base joined all := by
  obtain ⟨kept, inBase, rfl⟩ := inner
  obtain ⟨_, inBoth, rfl⟩ := outer
  obtain ⟨twice, fresh, again, onAdded, rfl⟩ := forall₂_append_left.mp inBoth
  obtain ⟨merged, inMiddle⟩ := exists_merged baseKeyed middleKeyed each inBase again onAdded
  refine ⟨merged ++ added middle layer, ⟨merged, inMiddle, rfl⟩, twice, ?_, ?_⟩
  · apply forall₂_through inBase again
    rintro entry member held ⟨heldKey, inner⟩ left ⟨leftKey, outer⟩
    rw [heldKey] at leftKey outer
    exact ⟨leftKey, KeptAt.through middleKeyed each inMiddle (baseKeyed.entries.2 entry member)
      inner outer⟩
  · have same : fresh = added base merged := by
      have filtered : List.Forall₂ (Kept layer) (added base middle) (added base merged) :=
        List.rel_filter (fun entry result held => by simp only [held.1]) inMiddle
      have unique : Relator.RightUnique (Kept layer) := fun _ _ _ => Kept.unique
      exact List.right_unique_forall₂' unique onAdded filtered
    rw [added_append, added_twice inBase, same, ← List.append_assoc]

end Regrouping

theorem regroups {top : Value} (keyed : Keyed top) : Regroups top := by
  -- over the topmost layer: for a scalar or a map, a middle of another kind contradicts one of
  -- the two overlays that are given
  induction top using byParts with
  | scalar leaf =>
    intro key base middle both all _ _ inner outer
    obtain ⟨kind, rfl⟩ := overlayValue_scalar_eq_ok.mp outer
    cases middle with
    | scalar other =>
      obtain ⟨baseKind, rfl⟩ := overlayValue_scalar_eq_ok.mp inner
      have joined : overlayValue key (.scalar other) (.scalar leaf) = .ok (.scalar leaf) :=
        overlayValue_scalar_eq_ok.mpr ⟨kind, rfl⟩
      exact ⟨_, joined, overlayValue_scalar_eq_ok.mpr ⟨baseKind.trans kind, rfl⟩⟩
    | list items =>
      rw [overlayValue_list] at inner
      cases inner
      cases leaf <;> cases kind
    | map entries =>
      obtain ⟨-, merged, -, rfl, -⟩ := overlayValue_map_eq_ok.mp inner
      cases leaf <;> cases kind
  | list items =>
    intro key base middle both all _ _ _ outer
    rw [overlayValue_list] at outer
    cases outer
    exact ⟨_, overlayValue_list items, overlayValue_list items⟩
  | map layer ih =>
    intro key base middle both all baseKeyed middleKeyed inner outer
    obtain ⟨entries, result, rfl, rfl, above⟩ := overlayValue_map_eq_ok.mp outer
    cases middle with
    | scalar leaf =>
      obtain ⟨-, impossible⟩ := overlayValue_scalar_eq_ok.mp inner
      cases impossible
    | list items =>
      rw [overlayValue_list] at inner
      cases inner
    | map middle =>
      obtain ⟨base, _, rfl, same, below⟩ := overlayValue_map_eq_ok.mp inner
      cases same
      obtain ⟨baseApart, -⟩ := baseKeyed.entries
      obtain ⟨middleApart, -⟩ := middleKeyed.entries
      obtain ⟨layerApart, layerParts⟩ := keyed.entries
      -- two maps: each overlay is told entry by entry, and the entries regroup by induction
      rw [overlayEntries_eq_ok baseApart middleApart] at below
      rw [overlayEntries_eq_ok (below.apart baseApart middleApart) layerApart] at above
      obtain ⟨joined, first, second⟩ := overlaid_regroups baseKeyed middleKeyed
        (fun entry member => ih entry member (layerParts entry member)) below above
      refine ⟨.map joined, ?_, ?_⟩
      · exact overlayValue_map_eq_ok.mpr ⟨middle, joined, rfl, rfl,
          (overlayEntries_eq_ok middleApart layerApart).mpr first⟩
      · exact overlayValue_map_eq_ok.mpr ⟨base, result, rfl, rfl,
          (overlayEntries_eq_ok baseApart (first.apart middleApart layerApart)).mpr second⟩

section Layers

variable {base middle top : Record}

theorem overlay_maps (key : Scalar) (base layer : Record) :
    overlay (.map base) (.map layer) = overlayValue key (.map base) (.map layer) := by
  rw [overlay, overlayValue, overlayRecord]
  cases overlayEntries base layer <;> rfl

theorem overlay_eq_ok {layer : Record} {result : Value} :
    overlay (.map base) (.map layer) = .ok result ↔
      ∃ merged, result = .map merged ∧ overlayEntries base layer = .ok merged := by
  rw [overlay_maps .null, overlayValue_map_eq_ok]
  simp

theorem overlay_empty_left (keyed : Keyed (.map base)) :
    overlay (.map []) (.map base) = .ok (.map base) := by
  have everything : Overlaid [] base base := ⟨[], .nil, by simp [added, has, find?]⟩
  exact overlay_eq_ok.mpr
    ⟨base, rfl, (overlayEntries_eq_ok List.Pairwise.nil keyed.entries.1).mpr everything⟩

theorem overlay_empty_right (base : Record) :
    overlay (.map base) (.map []) = .ok (.map base) :=
  overlay_eq_ok.mpr ⟨base, rfl, by rw [overlayEntries]⟩

theorem overlay_join {both all : Value} (baseKeyed : Keyed (.map base))
    (middleKeyed : Keyed (.map middle)) (topKeyed : Keyed (.map top))
    (inner : overlay (.map base) (.map middle) = .ok both)
    (outer : overlay both (.map top) = .ok all) :
    ∃ joined, overlay (.map middle) (.map top) = .ok (.map joined) ∧
      overlay (.map base) (.map joined) = .ok all ∧ Keyed (.map joined) := by
  obtain ⟨merged, rfl, -⟩ := overlay_eq_ok.mp inner
  rw [overlay_maps .null] at inner outer
  obtain ⟨joined, first, second⟩ := regroups topKeyed .null _ _ _ _ baseKeyed middleKeyed inner outer
  have joinedKeyed := keyed_of_overlayValue middleKeyed topKeyed first
  obtain ⟨_, entries, -, rfl, -⟩ := overlayValue_map_eq_ok.mp first
  exact ⟨entries, (overlay_maps .null middle top).trans first,
    (overlay_maps .null base entries).trans second, joinedKeyed⟩

/-- Layers merged with each other, the last first. -/
def mergeLayers : List Record → Except PolicyError Value
  | [] => .ok (.map [])
  | layer :: rest => do overlay (.map layer) (← mergeLayers rest)

/-- Layers laid over a base one after another. -/
def layAll (base : Value) (layers : List Record) : Except PolicyError Value :=
  layers.foldlM (fun under layer => overlay under (.map layer)) base

theorem layAll_eq_mergeLayers {layers : List Record} {result : Value}
    (baseKeyed : Keyed (.map base)) (layersKeyed : ∀ layer ∈ layers, Keyed (.map layer))
    (laid : layAll (.map base) layers = .ok result) :
    ∃ merged, mergeLayers layers = .ok (.map merged) ∧ Keyed (.map merged) ∧
      overlay (.map base) (.map merged) = .ok result := by
  induction layers generalizing base with
  | nil =>
    cases laid
    exact ⟨[], rfl, .map List.Pairwise.nil (by simp), overlay_empty_right base⟩
  | cons layer rest ih =>
    obtain ⟨layerKeyed, restKeyed⟩ := List.forall_mem_cons.mp layersKeyed
    rw [layAll, List.foldlM_cons, bind_eq_ok] at laid
    obtain ⟨under, first, laid⟩ := laid
    obtain ⟨entries, rfl, -⟩ := overlay_eq_ok.mp first
    have underKeyed := keyed_of_overlayValue baseKeyed layerKeyed
      ((overlay_maps .null base layer).symm.trans first)
    obtain ⟨merged, stacked, mergedKeyed, outer⟩ := ih underKeyed restKeyed laid
    obtain ⟨joined, joins, whole, joinedKeyed⟩ :=
      overlay_join baseKeyed layerKeyed mergedKeyed first outer
    refine ⟨joined, ?_, joinedKeyed, whole⟩
    rw [mergeLayers, stacked]
    exact joins

/-- The empty map changes nothing on either side. Where layers can be laid over a base one after
another, those above can be merged first, with the same result in the same order of keys. -/
theorem overlay_regroups (baseKeyed : Keyed (.map base)) (middleKeyed : Keyed (.map middle))
    (topKeyed : Keyed (.map top)) :
    overlay (.map []) (.map base) = .ok (.map base) ∧
      overlay (.map base) (.map []) = .ok (.map base) ∧
      (∀ both all, overlay (.map base) (.map middle) = .ok both →
        overlay both (.map top) = .ok all →
        ∃ joined, overlay (.map middle) (.map top) = .ok joined ∧
          overlay (.map base) joined = .ok all) ∧
      ∀ layers : List Record, (∀ layer ∈ layers, Keyed (.map layer)) →
        ∀ result, layAll (.map base) layers = .ok result →
          ∃ merged, mergeLayers layers = .ok merged ∧ overlay (.map base) merged = .ok result := by
  refine ⟨overlay_empty_left baseKeyed, overlay_empty_right base, ?_, ?_⟩
  · intro both all inner outer
    obtain ⟨joined, first, second, -⟩ := overlay_join baseKeyed middleKeyed topKeyed inner outer
    exact ⟨.map joined, first, second⟩
  · intro layers layersKeyed result laid
    obtain ⟨merged, stacked, -, whole⟩ := layAll_eq_mergeLayers baseKeyed layersKeyed laid
    exact ⟨.map merged, stacked, whole⟩

end Layers

def shared : Record :=
  Record.ofFields [("toolchain", .text "cargo"),
    ("vendor", .ofFields [("enabled", .bool true), ("requires", .ofTexts ["serde"])])]

def team : Record :=
  Record.ofFields [("vendor", .ofFields [("requires", .ofTexts []), ("path", .text "third_party")]),
    ("lints", .ofTexts ["-D dead_code"])]

def personal : Record := Record.ofFields [("vendor", .ofFields [("enabled", .bool false)])]

def combined : Record :=
  Record.ofFields [("toolchain", .text "cargo"),
    ("vendor", .ofFields [("enabled", .bool false), ("requires", .ofTexts []),
      ("path", .text "third_party")]),
    ("lints", .ofTexts ["-D dead_code"])]

theorem personal_over_team_over_shared :
    Keyed (.map shared) ∧ Keyed (.map team) ∧ Keyed (.map personal) ∧
      layAll (.map shared) [team, personal] = .ok (.map combined) ∧
      ∃ joined, overlay (.map team) (.map personal) = .ok joined ∧
        overlay (.map shared) joined = .ok (.map combined) := by
  have sharedKeyed : Keyed (.map shared) := by
    apply Plain.keyed
    apply plain_ofFields (by decide)
    simp only [List.forall_mem_cons, Plain.scalar, true_and]
    exact ⟨plain_ofFields (by decide) (by simp [Plain.scalar, plain_ofTexts]), by simp⟩
  have teamKeyed : Keyed (.map team) := by
    apply Plain.keyed
    apply plain_ofFields (by decide)
    simp only [List.forall_mem_cons, plain_ofTexts, true_and]
    exact ⟨plain_ofFields (by decide) (by simp [Plain.scalar, plain_ofTexts]), by simp⟩
  have personalKeyed : Keyed (.map personal) := by
    apply Plain.keyed
    apply plain_ofFields (by decide)
    simp only [List.forall_mem_cons]
    exact ⟨plain_ofFields (by decide) (by simp [Plain.scalar]), by simp⟩
  have laid : layAll (.map shared) [team, personal] = .ok (.map combined) := rfl
  obtain ⟨-, -, regrouped, -⟩ := overlay_regroups sharedKeyed teamKeyed personalKeyed
  obtain ⟨both, inner, outer⟩ := bind_eq_ok.mp laid
  obtain ⟨all, outer, rest⟩ := bind_eq_ok.mp outer
  cases rest
  exact ⟨sharedKeyed, teamKeyed, personalKeyed, laid, regrouped both _ inner outer⟩

end BuildRules.Config
