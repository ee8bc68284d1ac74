import BuildRules.Config.Merge
import BuildRules.Proofs.Returns
import BuildRules.Proofs.Value.Keyed

namespace BuildRules.Config

open Value Entries

section OneValue

variable {key other : Scalar} {base result : Value}

theorem overlayValue_list (items : List Value) :
    overlayValue key base (.list items) = .ok (.list items) := by
  rw [overlayValue]

theorem overlayValue_scalar_eq_ok {leaf : Scalar} :
    overlayValue key base (.scalar leaf) = .ok result ↔
      base.kind = leaf.kind ∧ result = .scalar leaf := by
  rw [overlayValue]
  split
  next same => simp [same, eq_comm (a := result)]
  next apart => simp [apart]

theorem overlayValue_map_eq_ok {layer : Record} :
    overlayValue key base (.map layer) = .ok result ↔
      ∃ entries merged, base = .map entries ∧ result = .map merged ∧
        overlayEntries entries layer = .ok merged := by
  cases base with
  | scalar leaf => simp [overlayValue]
  | list items => simp [overlayValue]
  | map entries =>
    simp only [overlayValue, bind_eq_ok, Except.ok.injEq, Value.map.injEq]
    constructor
    · rintro ⟨merged, laid, rfl⟩
      exact ⟨entries, merged, rfl, rfl, laid⟩
    · rintro ⟨_, merged, rfl, rfl, laid⟩
      exact ⟨merged, laid, rfl⟩

/-- The key is named by a conflict and does not matter otherwise. -/
theorem overlayValue_any_key {layer : Value} (laid : overlayValue key base layer = .ok result)
    (other : Scalar) : overlayValue other base layer = .ok result := by
  cases layer with
  | scalar leaf => exact overlayValue_scalar_eq_ok.mpr (overlayValue_scalar_eq_ok.mp laid)
  | list items => rwa [overlayValue_list] at laid ⊢
  | map entries => exact overlayValue_map_eq_ok.mpr (overlayValue_map_eq_ok.mp laid)

end OneValue

/-- What is left of a value of the base: itself, or what the layer makes of it. -/
def KeptAt (layer : Record) (key : Scalar) (old result : Value) : Prop :=
  match find? layer key with
  | none => result = old
  | some value => overlayValue key old value = .ok result

def Kept (layer : Record) (entry result : Scalar × Value) : Prop :=
  result.1 = entry.1 ∧ KeptAt layer entry.1 entry.2 result.2

/-- Entries of the layer that the base does not have. -/
def added (base layer : Record) : Record := layer.filter fun entry => !has base entry.1

/-- The entries of the base in their places, then those that only the layer has. -/
def Overlaid (base layer result : Record) : Prop :=
  ∃ kept, List.Forall₂ (Kept layer) base kept ∧ result = kept ++ added base layer

section Entry

variable {layer rest : Record} {entry result other : Scalar × Value} {key : Scalar}
  {old value : Value}

theorem KeptAt.any_key {same : Scalar} {result : Value} (kept : KeptAt layer key old result)
    (equal : Key.same key same = true) : KeptAt layer same old result := by
  rw [KeptAt, find?_congr equal] at kept
  rw [KeptAt]
  split
  next absent => simpa [absent] using kept
  next value present => exact overlayValue_any_key (by simpa [present] using kept) same

theorem kept_of_absent (absent : find? layer key = none) :
    Kept layer (key, old) result ↔ result = (key, old) := by
  simp only [Kept, KeptAt, absent, Prod.ext_iff]

theorem kept_of_present (present : find? layer key = some value) :
    Kept layer (key, old) result ↔
      result.1 = key ∧ overlayValue key old value = .ok result.2 := by
  simp only [Kept, KeptAt, present]

theorem KeptAt.unique {held left : Value} (first : KeptAt layer key old held)
    (second : KeptAt layer key old left) : held = left := by
  cases present : find? layer key with
  | none =>
    simp only [KeptAt, present] at first second
    exact first.trans second.symm
  | some value =>
    simp only [KeptAt, present] at first second
    exact Except.ok.inj (first.symm.trans second)

theorem Kept.unique (first : Kept layer entry result) (second : Kept layer entry other) :
    result = other :=
  Prod.ext (first.1.trans second.1.symm) (first.2.unique second.2)

theorem kept_congr (same : find? layer entry.1 = find? rest entry.1) :
    Kept layer entry result ↔ Kept rest entry result := by
  simp only [Kept, KeptAt, same]

end Entry

section Step

variable {base rest result : Record} {key : Scalar} {value old merged : Value}

theorem find?_cons_of_absent (absent : find? base key = none) :
    ∀ entry ∈ base, find? ((key, value) :: rest) entry.1 = find? rest entry.1 := by
  intro entry member
  have other : ¬ Key.same key entry.1 = true := by
    intro same
    have apart := find?_eq_none_iff.mp absent entry member
    rw [Scalar.same_symm same] at apart
    cases apart
  rw [find?, if_neg other]

theorem forall₂_kept_of_absent (absent : find? base key = none) {kept : Record} :
    List.Forall₂ (Kept ((key, value) :: rest)) base kept ↔ List.Forall₂ (Kept rest) base kept :=
  forall₂_congr_left fun entry member _ => kept_congr (find?_cons_of_absent absent entry member)

theorem added_congr {first second layer : Record}
    (same : ∀ entry ∈ layer, has first entry.1 = has second entry.1) :
    added first layer = added second layer :=
  List.filter_congr fun entry member => by rw [same entry member]

theorem overlaid_absent (absent : find? base key = none) (fresh : find? rest key = none) :
    Overlaid (base ++ [(key, value)]) rest result ↔ Overlaid base ((key, value) :: rest) result := by
  have new : added (base ++ [(key, value)]) rest = added base rest := by
    apply added_congr
    intro entry member
    have other := find?_eq_none_iff.mp fresh entry member
    rw [has, has, find?_append, find?, if_neg (by rw [Scalar.same_comm, other]; decide), find?,
      Option.or_none]
  have first : added base ((key, value) :: rest) = (key, value) :: added base rest := by
    simp [added, has, absent]
  have tail (last : Record) :
      List.Forall₂ (Kept rest) [(key, value)] last ↔ last = [(key, value)] := by
    cases last with
    | nil => simp
    | cons entry last => simp [kept_of_absent fresh]
  simp only [Overlaid, forall₂_append_left, forall₂_kept_of_absent absent, tail, new, first]
  constructor
  · rintro ⟨_, ⟨kept, _, parts, rfl, rfl⟩, rfl⟩
    exact ⟨kept, parts, by simp⟩
  · rintro ⟨kept, parts, rfl⟩
    exact ⟨kept ++ [(key, value)], ⟨kept, _, parts, rfl, rfl⟩, by simp⟩

theorem overlaid_present {front back : Record} {candidate : Scalar}
    (same : Key.same candidate key = true) (missing : find? front key = none)
    (later : find? back key = none) (fresh : find? rest key = none)
    (laid : overlayValue key old value = .ok merged) :
    Overlaid (front ++ (candidate, merged) :: back) rest result ↔
      Overlaid (front ++ (candidate, old) :: back) ((key, value) :: rest) result := by
  have middle (kept : Scalar × Value) :
      Kept rest (candidate, merged) kept ↔ Kept ((key, value) :: rest) (candidate, old) kept := by
    have here : find? ((key, value) :: rest) candidate = some value := by
      rw [find?, if_pos (Scalar.same_symm same)]
    have gone : find? rest candidate = none := by rw [find?_congr same, fresh]
    rw [kept_of_absent gone,
      kept_of_present here, Prod.ext_iff]
    dsimp only
    rw [overlayValue_any_key laid candidate]
    simp [eq_comm]
  have new : added (front ++ (candidate, old) :: back) ((key, value) :: rest) =
      added (front ++ (candidate, merged) :: back) rest := by
    rw [added, List.filter_cons_of_neg (by simp [has_eq_any, same])]
    exact added_congr fun entry _ => by simp [has_eq_any]
  simp only [Overlaid, forall₂_append_left, List.forall₂_cons_left_iff, middle,
    forall₂_kept_of_absent missing, forall₂_kept_of_absent later, new]

end Step

theorem overlaid_nil {base result : Record} : Overlaid base [] result ↔ result = base := by
  have kept (kept : Record) : List.Forall₂ (Kept []) base kept ↔ kept = base := by
    have unchanged : ∀ entry ∈ base, ∀ result, Kept [] entry result ↔ entry = result :=
      fun entry _ result => (kept_of_absent rfl).trans eq_comm
    rw [forall₂_congr_left unchanged, List.forall₂_eq_eq_eq, eq_comm]
  simp [Overlaid, kept, added]

theorem apart_iff_keys {entries : Record} :
    Apart entries ↔ entries.keys.Pairwise fun key other => Key.same key other = false := by
  rw [Apart, keys, List.pairwise_map]

theorem apart_append {front back : Record} : Apart (front ++ back) ↔
    Apart front ∧ Apart back ∧ ∀ entry ∈ back, find? front entry.1 = none := by
  simp only [Apart, List.pairwise_append, find?_eq_none_iff]
  refine and_congr_right fun _ => and_congr_right fun _ => ?_
  exact ⟨fun apart other late entry early => apart entry early other late,
    fun apart entry early other late => apart other late entry early⟩

/-- What a layer makes of a base, entry by entry. -/
theorem overlayEntries_eq_ok {base layer result : Record} (baseApart : Apart base)
    (layerApart : Apart layer) :
    overlayEntries base layer = .ok result ↔ Overlaid base layer result := by
  induction layer generalizing base with
  | nil => rw [overlayEntries, overlaid_nil, Except.ok.injEq, eq_comm]
  | cons entry rest ih =>
    obtain ⟨key, value⟩ := entry
    obtain ⟨first, restApart⟩ := List.pairwise_cons.mp layerApart
    have fresh : find? rest key = none :=
      find?_eq_none_iff.mpr fun entry member => (Scalar.same_comm _ _).trans (first entry member)
    rw [overlayEntries]
    split
    next absent =>
      -- a key that the base lacks goes behind it, and no later entry of the layer has it
      rw [insert_of_absent absent, ← overlaid_absent absent fresh]
      apply ih _ restApart
      exact apart_append.mpr ⟨baseApart, List.pairwise_singleton _ _, by simpa using absent⟩
    next old present =>
      -- a key of the base keeps its place and its spelling, so the base is taken apart there
      obtain ⟨front, candidate, back, rfl, same, missing⟩ := split_of_find? present
      obtain ⟨frontApart, restOfBase, across⟩ := apart_append.mp baseApart
      obtain ⟨beyond, backApart⟩ := List.pairwise_cons.mp restOfBase
      have later : find? back key = none :=
        find?_eq_none_iff.mpr fun entry member => by
          rw [← Scalar.same_congr same, Scalar.same_comm, beyond entry member]
      have replaced (merged : Value) : Apart (front ++ (candidate, merged) :: back) :=
        apart_append.mpr ⟨frontApart, List.pairwise_cons.mpr ⟨beyond, backApart⟩,
          by simpa using across⟩
      rw [bind_eq_ok]
      constructor
      · rintro ⟨merged, laid, whole⟩
        rw [insert_of_split missing same, ih (replaced merged) restApart] at whole
        exact (overlaid_present same missing later fresh laid).mp whole
      · intro whole
        have here : find? ((key, value) :: rest) candidate = some value := by
          rw [find?, if_pos (Scalar.same_symm same)]
        obtain ⟨kept, parts, -⟩ := id whole
        obtain ⟨fronts, backs, -, held, -⟩ := forall₂_append_left.mp parts
        obtain ⟨merged, -, head, -, -⟩ := List.forall₂_cons_left_iff.mp held
        have laid := overlayValue_any_key
          ((kept_of_present here).mp head).2 key
        refine ⟨merged.2, laid, ?_⟩
        rw [insert_of_split missing same, ih (replaced merged.2) restApart]
        exact (overlaid_present same missing later fresh laid).mpr whole

section Lookup

variable {base middle layer kept : Record} {key : Scalar}

theorem find?_kept_absent (parts : List.Forall₂ (Kept layer) base kept)
    (absent : find? base key = none) : find? kept key = none := by
  induction parts with
  | nil => rfl
  | @cons entry result base kept head _ ih =>
    rw [find?] at absent ⊢
    rw [head.1]
    split at absent
    next => cases absent
    next apart => rw [if_neg apart, ih absent]

theorem find?_kept_present (parts : List.Forall₂ (Kept layer) base kept) {old : Value}
    (present : find? base key = some old) :
    ∃ result, find? kept key = some result ∧ KeptAt layer key old result := by
  induction parts with
  | nil => cases present
  | @cons entry result base kept head _ ih =>
    rw [find?] at present ⊢
    rw [head.1]
    split at present
    next same =>
      cases present
      exact ⟨result.2, by rw [if_pos same], head.2.any_key same⟩
    next apart =>
      obtain ⟨result, found, left⟩ := ih present
      exact ⟨result, by rw [if_neg apart, found], left⟩

theorem has_kept (parts : List.Forall₂ (Kept layer) base kept) (key : Scalar) :
    has kept key = has base key := by
  cases present : find? base key with
  | none => rw [has, has, present, find?_kept_absent parts present]
  | some old =>
    obtain ⟨result, found, -⟩ := find?_kept_present parts present
    rw [has, has, present, found, Option.isSome_some, Option.isSome_some]

/-- What the base does not have is looked up among the additions alone. -/
theorem find?_added (absent : find? base key = none) :
    find? (added base layer) key = find? layer key := by
  induction layer with
  | nil => rfl
  | cons entry rest ih =>
    by_cases same : Key.same entry.1 key = true
    · have fresh : has base entry.1 = false := by rw [has, find?_congr same, absent]; rfl
      rw [added, List.filter_cons_of_pos (by simp [fresh]), find?, find?, if_pos same, if_pos same]
    · rw [find?, if_neg same, ← ih, added, added, List.filter_cons]
      split
      · rw [find?, if_neg same]
      · rfl

theorem has_added (base layer : Record) (key : Scalar) :
    has (added base layer) key = (has layer key && !has base key) := by
  cases present : find? base key with
  | none => simp [has, find?_added present, present]
  | some old =>
    have gone : find? (added base layer) key = none := by
      rw [find?_eq_none_iff]
      intro entry member
      have fresh : has base entry.1 = false := by simpa [added] using (List.mem_filter.mp member).2
      rw [← Bool.not_eq_true]
      intro same
      rw [has, find?_congr same, present] at fresh
      cases fresh
    simp [has, gone, present]

theorem added_append (base front back : Record) :
    added base (front ++ back) = added base front ++ added base back :=
  List.filter_append ..

/-- Additions to a base and to what was added to it before. -/
theorem added_twice (parts : List.Forall₂ (Kept middle) base kept) (layer : Record) :
    added (kept ++ added base middle) layer = added base (added middle layer) := by
  have both (entry : Scalar × Value) : (!has (kept ++ added base middle) entry.1) =
      (!has base entry.1 && !has middle entry.1) := by
    have whole : has (kept ++ added base middle) entry.1 =
        (has kept entry.1 || has (added base middle) entry.1) := by
      simp [has, find?_append]
    rw [whole, has_kept parts, has_added]
    cases has base entry.1 <;> simp
  calc added (kept ++ added base middle) layer
      = layer.filter fun entry => !has base entry.1 && !has middle entry.1 :=
        List.filter_congr fun entry _ => both entry
    _ = added base (added middle layer) := List.filter_filter.symm

end Lookup

section Keys

variable {base layer result : Record}

theorem keys_kept {kept : Record} (parts : List.Forall₂ (Kept layer) base kept) :
    kept.keys = base.keys := by
  induction parts with
  | nil => rfl
  | cons head _ ih =>
    simp only [keys, List.map_cons, head.1] at ih ⊢
    rw [ih]

theorem Overlaid.apart (baseApart : Apart base) (layerApart : Apart layer)
    (laid : Overlaid base layer result) : Apart result := by
  obtain ⟨kept, parts, rfl⟩ := laid
  refine apart_append.mpr ⟨?_, List.Pairwise.filter _ layerApart, ?_⟩
  · rw [apart_iff_keys] at baseApart ⊢
    rwa [keys_kept parts]
  · intro entry member
    have fresh : has base entry.1 = false := by simpa [added] using (List.mem_filter.mp member).2
    rw [← has_kept parts] at fresh
    simpa [has] using fresh

theorem keyed_of_overlayValue {key : Scalar} {base layer result : Value} (baseKeyed : Keyed base)
    (layerKeyed : Keyed layer) (laid : overlayValue key base layer = .ok result) :
    Keyed result := by
  induction layer using byParts generalizing key base result with
  | scalar leaf =>
    obtain ⟨-, rfl⟩ := overlayValue_scalar_eq_ok.mp laid
    exact layerKeyed
  | list items =>
    rw [overlayValue_list] at laid
    exact Except.ok.inj laid ▸ layerKeyed
  | map layer ih =>
    obtain ⟨entries, merged, rfl, rfl, merges⟩ := overlayValue_map_eq_ok.mp laid
    obtain ⟨baseApart, baseParts⟩ := baseKeyed.entries
    obtain ⟨layerApart, layerParts⟩ := layerKeyed.entries
    have overlaid := (overlayEntries_eq_ok baseApart layerApart).mp merges
    refine .map (overlaid.apart baseApart layerApart) ?_
    obtain ⟨kept, parts, rfl⟩ := overlaid
    intro entry member
    rcases List.mem_append.mp member with old | new
    · obtain ⟨source, present, -, left⟩ := exists_of_forall₂ parts.flip old
      have sourceKeyed := baseParts source present
      cases found : find? layer source.1 with
      | none =>
        have same : entry.2 = source.2 := by simpa [KeptAt, found] using left
        exact same ▸ sourceKeyed
      | some value =>
        have replaced : overlayValue source.1 source.2 value = .ok entry.2 := by
          simpa [KeptAt, found] using left
        obtain ⟨candidate, present, -⟩ := exists_of_find? found
        exact ih (candidate, value) present sourceKeyed (layerParts _ present) replaced
    · exact layerParts entry (List.mem_of_mem_filter new)

end Keys
end BuildRules.Config
