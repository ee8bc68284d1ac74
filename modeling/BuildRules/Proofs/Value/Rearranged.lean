import BuildRules.Proofs.Pairing
import BuildRules.Proofs.Value.Entries
import Mathlib.Data.List.Perm.Basic

namespace BuildRules.Value

/-- What holds of a value when it holds of its parts. -/
@[elab_as_elim]
theorem byParts {motive : Value → Prop} (scalar : ∀ leaf, motive (.scalar leaf))
    (list : ∀ items, (∀ item ∈ items, motive item) → motive (.list items))
    (map : ∀ entries, (∀ entry ∈ entries, motive entry.2) → motive (.map entries)) :
    ∀ value, motive value
  | .scalar leaf => scalar leaf
  | .list items => list items fun item _ => byParts scalar list map item
  | .map entries => map entries fun entry _ => byParts scalar list map entry.2
termination_by value => sizeOf value
decreasing_by
  · have smaller := List.sizeOf_lt_of_mem ‹_›
    simp only [Value.list.sizeOf_spec]
    omega
  · have smaller := List.sizeOf_lt_of_mem ‹_›
    have part : sizeOf entry.2 < sizeOf entry := by
      cases entry
      simp only [Prod.mk.sizeOf_spec]
      omega
    simp only [Value.map.sizeOf_spec]
    omega

/-- All keys are texts, and no map has one twice. -/
inductive Plain : Value → Prop where
  | scalar (leaf : Scalar) : Plain (.scalar leaf)
  | list {items : List Value} (parts : ∀ item ∈ items, Plain item) : Plain (.list items)
  | map {entries : Record} (texts : ∀ entry ∈ entries, ∃ name, entry.1 = .text name)
      (distinct : entries.keys.Nodup) (parts : ∀ entry ∈ entries, Plain entry.2) :
      Plain (.map entries)

/-- Equal up to the order of entries: leaves are equal, lists agree item by item, and the
entries of a map can be brought in an order in which keys are equal and values agree. -/
inductive Rearranged : Value → Value → Prop where
  | scalar (leaf : Scalar) : Rearranged (.scalar leaf) (.scalar leaf)
  | list {items others : List Value} (parts : List.Forall₂ Rearranged items others) :
      Rearranged (.list items) (.list others)
  | map {entries middle others : Record} (order : entries.Perm middle)
      (keys : middle.keys = others.keys)
      (parts : List.Forall₂ Rearranged middle.values others.values) :
      Rearranged (.map entries) (.map others)

theorem Rearranged.refl (value : Value) : Rearranged value value := by
  induction value using byParts with
  | scalar leaf => exact .scalar leaf
  | list items same => exact .list (List.forall₂_same.mpr same)
  | map entries same =>
    apply Rearranged.map (List.Perm.refl entries) rfl
    apply List.forall₂_same.mpr
    intro value member
    obtain ⟨entry, present, rfl⟩ := List.mem_map.mp member
    exact same entry present

/-- Entries with one key and rearranged values. -/
def Paired (entry other : Scalar × Value) : Prop :=
  entry.1 = other.1 ∧ Rearranged entry.2 other.2

theorem forall₂_paired {entries others : Record} :
    List.Forall₂ Paired entries others ↔
      entries.keys = others.keys ∧ List.Forall₂ Rearranged entries.values others.values := by
  induction entries generalizing others with
  | nil =>
    cases others with
    | nil => simp [Entries.keys, Entries.values]
    | cons other others => simp [Entries.keys, Entries.values]
  | cons entry entries ih =>
    cases others with
    | nil => simp [Entries.keys, Entries.values]
    | cons other others =>
      simp only [Entries.keys, Entries.values] at ih
      simp only [List.forall₂_cons, Paired, ih, Entries.keys, Entries.values, List.map_cons,
        List.cons.injEq]
      constructor
      · rintro ⟨⟨key, value⟩, keys, values⟩
        exact ⟨⟨key, keys⟩, value, values⟩
      · rintro ⟨⟨key, keys⟩, value, values⟩
        exact ⟨⟨key, value⟩, keys, values⟩

theorem rearranged_map_iff {entries others : Record} :
    Rearranged (.map entries) (.map others) ↔
      ∃ middle, entries.Perm middle ∧ List.Forall₂ Paired middle others := by
  constructor
  · intro same
    cases same with
    | map order keys parts => exact ⟨_, order, forall₂_paired.mpr ⟨keys, parts⟩⟩
  · rintro ⟨middle, order, paired⟩
    obtain ⟨keys, parts⟩ := forall₂_paired.mp paired
    exact .map order keys parts

theorem Rearranged.symm {left right : Value} (same : Rearranged left right) :
    Rearranged right left := by
  induction left using byParts generalizing right with
  | scalar leaf => cases same; exact .scalar leaf
  | list items ih =>
    cases same with
    | @list _ others parts =>
      have back := forall₂_imp_mem parts fun item member other _ part => ih item member part
      exact .list back.flip
  | map entries ih =>
    cases right with
    | scalar leaf => cases same
    | list items => cases same
    | map others =>
      obtain ⟨middle, order, paired⟩ := rearranged_map_iff.mp same
      have back : List.Forall₂ Paired others middle := List.Forall₂.flip <|
        forall₂_imp_mem paired fun entry member other _ pair =>
          ⟨pair.1.symm, ih entry (order.mem_iff.mpr member) pair.2⟩
      -- the pairs are brought in the order of the other map
      have arranged : Relation.Comp (List.Forall₂ Paired) List.Perm others entries :=
        ⟨middle, back, order.symm⟩
      rw [List.forall₂_comp_perm_eq_perm_comp_forall₂] at arranged
      exact rearranged_map_iff.mpr arranged

theorem Rearranged.trans {left middle right : Value} (first : Rearranged left middle)
    (second : Rearranged middle right) : Rearranged left right := by
  induction left using byParts generalizing middle right with
  | scalar leaf =>
    cases first
    exact second
  | list items ih =>
    cases first with
    | list lowers =>
      cases second with
      | list uppers =>
        exact .list <| forall₂_through lowers uppers
          fun item member result lower top upper => ih item member lower upper
  | map entries ih =>
    cases middle with
    | scalar leaf => cases first
    | list items => cases first
    | map fields =>
      cases right with
      | scalar leaf => cases second
      | list items => cases second
      | map others =>
        obtain ⟨arranged, order, lowers⟩ := rearranged_map_iff.mp first
        obtain ⟨shuffled, reorder, uppers⟩ := rearranged_map_iff.mp second
        -- the lower pairs are brought in the order of the upper ones
        have moved : Relation.Comp (List.Forall₂ Paired) List.Perm arranged shuffled :=
          ⟨fields, lowers, reorder⟩
        rw [List.forall₂_comp_perm_eq_perm_comp_forall₂] at moved
        obtain ⟨middle, again, lowers⟩ := moved
        refine rearranged_map_iff.mpr ⟨middle, order.trans again, ?_⟩
        apply forall₂_through lowers uppers
        intro entry member field lower other upper
        have kept := (order.trans again).mem_iff.mpr member
        exact ⟨lower.1.trans upper.1, ih entry kept lower.2 upper.2⟩

theorem Plain.items {items : List Value} (plain : Plain (.list items)) :
    ∀ item ∈ items, Plain item := by
  cases plain with
  | list parts => exact parts

theorem Plain.entries {entries : Record} (plain : Plain (.map entries)) :
    (∀ entry ∈ entries, ∃ name, entry.1 = .text name) ∧ entries.keys.Nodup ∧
      ∀ entry ∈ entries, Plain entry.2 := by
  cases plain with
  | map texts distinct parts => exact ⟨texts, distinct, parts⟩

theorem plain_ofTexts (texts : List String) : Plain (.ofTexts texts) :=
  .list (by simp [Plain.scalar])

theorem plain_ofFields {fields : List (String × Value)} (distinct : (fields.map Prod.fst).Nodup)
    (parts : ∀ field ∈ fields, Plain field.2) : Plain (.ofFields fields) := by
  have keys : (Record.ofFields fields).keys = (fields.map Prod.fst).map .text := by
    simp [Record.ofFields, Entries.keys]
  apply Plain.map
  · intro entry member
    obtain ⟨field, present, rfl⟩ := List.mem_map.mp member
    exact ⟨field.1, rfl⟩
  · rw [keys]
    exact List.Pairwise.map _ (fun _ _ apart same => apart (Scalar.text.inj same)) distinct
  · intro entry member
    obtain ⟨field, present, rfl⟩ := List.mem_map.mp member
    exact parts field present

end BuildRules.Value
