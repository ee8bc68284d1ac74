import BuildRules.Json.Render
import BuildRules.Proofs.Stage.Plan
import BuildRules.Proofs.Value.Written

namespace BuildRules

theorem Sorted.forall₂_sort {α β : Type} {le : α → α → Bool} {otherLe : β → β → Bool}
    {related : α → β → Prop}
    (agree : ∀ left other, related left other → ∀ right another, related right another →
      le left right = otherLe other another)
    {items : List α} {others : List β} (pairs : List.Forall₂ related items others) :
    List.Forall₂ related (sort le items) (sort otherLe others) := by
  have inserted {item : α} {other : β} (pair : related item other) {rest : List α}
      {remaining : List β} (pairs : List.Forall₂ related rest remaining) :
      List.Forall₂ related (insert le item rest) (insert otherLe other remaining) := by
    induction pairs with
    | nil => exact .cons pair .nil
    | cons first pairs ih =>
      rw [insert, insert, agree _ _ pair _ _ first]
      split
      · exact .cons pair (.cons first pairs)
      · exact .cons first ih
  induction pairs with
  | nil => exact .nil
  | cons first pairs ih => exact inserted first ih

theorem Sorted.sort_perm {α : Type} (le : α → α → Bool) (items : List α) :
    (sort le items).Perm items := by
  have inserted (item : α) (rest : List α) : (insert le item rest).Perm (item :: rest) := by
    induction rest with
    | nil => exact .refl _
    | cons head rest ih =>
      rw [insert]
      split
      · exact .refl _
      · exact (ih.cons head).trans (.swap item head rest)
  induction items with
  | nil => exact .nil
  | cons head rest ih => exact (inserted head _).trans (ih.cons head)

namespace Json

open Value

def sortNames (members : List (String × Json)) : List (String × Json) :=
  Sorted.sort (fun left right => keyLe (.text left.1) (.text right.1)) members

theorem sortNames_eq_insertionSort (members : List (String × Json)) :
    sortNames members = members.insertionSort fun left right => left.1 ≤ right.1 := by
  have order : (fun left right : String × Json => keyLe (.text left.1) (.text right.1)) =
      fun left right => decide (left.1 ≤ right.1) := by
    funext left right
    by_cases before : right.1 < left.1
    · simp [keyLe, Scalar.before, before]
    · simp [keyLe, Scalar.before, before, String.not_lt.mp before]
  rw [sortNames, order, Sorted.sort_eq_insertionSort]

theorem sortNames_perm (members : List (String × Json)) : (sortNames members).Perm members :=
  Sorted.sort_perm _ members

/-- Distinct names leave one order. -/
theorem sortNames_eq_of_perm {left right : List (String × Json)} (order : left.Perm right)
    (distinct : (right.map Prod.fst).Nodup) : sortNames left = sortNames right := by
  have total : Std.Total fun left right : String × Json => left.1 ≤ right.1 :=
    ⟨fun left right => String.le_total left.1 right.1⟩
  have transitive : IsTrans (String × Json) fun left right => left.1 ≤ right.1 :=
    ⟨fun _ _ _ => String.le_trans⟩
  have sorted := (sortNames_perm left).trans (order.trans (sortNames_perm right).symm)
  have unique : ((sortNames right).map Prod.fst).Nodup :=
    ((sortNames_perm right).map Prod.fst).nodup_iff.mpr distinct
  apply List.Perm.eq_of_pairwise _ _ _ sorted
  · exact fun left right : String × Json => left.1 ≤ right.1
  · intro entry other member present below above
    have names : entry.1 = other.1 := String.le_antisymm below above
    exact List.inj_on_of_nodup_map unique (sorted.mem_iff.mp member) present names
  · rw [sortNames_eq_insertionSort]
    exact List.pairwise_insertionSort _ left
  · rw [sortNames_eq_insertionSort]
    exact List.pairwise_insertionSort _ right

theorem ofItems_eq_ok {items : List Value} {documents : List Json} :
    ofItems items = .ok documents ↔
      List.Forall₂ (fun item document => ofValue item = .ok document) items documents := by
  induction items generalizing documents with
  | nil =>
    simp only [ofItems, Except.ok.injEq, List.forall₂_nil_left_iff]
    exact eq_comm
  | cons item rest ih =>
    simp only [ofItems, bind_eq_ok, Except.ok.injEq, ih]
    constructor
    · rintro ⟨document, read, others, reads, rfl⟩
      exact .cons read reads
    · rintro (_ | ⟨read, reads⟩)
      exact ⟨_, read, _, reads, rfl⟩

def Stands (entry : Scalar × Value) (member : String × Json) : Prop :=
  entry.1 = .text member.1 ∧ ofValue entry.2 = .ok member.2

def sortKeys (entries : Record) : Record :=
  Sorted.sort (fun left right => keyLe left.1 right.1) entries

theorem mem_sortKeys {entries : Record} {entry : Scalar × Value} :
    entry ∈ sortKeys entries ↔ entry ∈ entries := (Sorted.sort_perm _ entries).mem_iff

def memberOf (entry : Scalar × Value) : Except Value.Fault (String × Json) :=
  ofMember (entry.1, ofValue entry.2)

theorem memberOf_eq_ok {entry : Scalar × Value} {member : String × Json} :
    memberOf entry = .ok member ↔ keyText entry.1 = .ok member.1 ∧ ofValue entry.2 = .ok member.2 := by
  rw [memberOf, ofMember, bind_eq_ok]
  constructor
  · rintro ⟨name, text, read⟩
    obtain ⟨document, found, same⟩ := bind_eq_ok.mp read
    cases same
    exact ⟨text, found⟩
  · rintro ⟨text, read⟩
    exact ⟨member.1, text, bind_eq_ok.mpr ⟨member.2, read, rfl⟩⟩

theorem memberOf_of_text {entry : Scalar × Value} {member : String × Json}
    (text : ∃ name, entry.1 = .text name) : memberOf entry = .ok member ↔ Stands entry member := by
  obtain ⟨name, text⟩ := text
  rw [memberOf_eq_ok, Stands, text, keyText, Except.ok.injEq, Scalar.text.injEq]

theorem ofEntries_eq_map (entries : Record) :
    ofEntries entries = entries.map fun entry => (entry.1, ofValue entry.2) := by
  induction entries with
  | nil => rfl
  | cons entry rest ih => rw [ofEntries, ih, List.map_cons]

/-- Members are made in the order of their keys, if the keys have one. -/
theorem ofValue_map_eq (entries : Record) :
    ofValue (.map entries) =
      match keyFault entries.keys with
      | some fault => .error fault
      | none => ((sortKeys entries).mapM memberOf).map .object := by
  have kept : Sorted.sort (fun left right => keyLe left.1 right.1) (ofEntries entries) =
      (sortKeys entries).map fun entry => (entry.1, ofValue entry.2) := by
    have pairs : List.Forall₂ (fun entry member => member = (entry.1, ofValue entry.2)) entries
        (ofEntries entries) := by
      rw [ofEntries_eq_map, List.forall₂_map_right_iff]
      exact List.forall₂_same.mpr fun _ _ => rfl
    have sorted : List.Forall₂ (fun entry member => member = (entry.1, ofValue entry.2))
        (Sorted.sort (fun left right => keyLe left.1 right.1) entries)
        (Sorted.sort (fun left right => keyLe left.1 right.1) (ofEntries entries)) :=
      Sorted.forall₂_sort (by rintro left _ rfl right _ rfl; rfl) pairs
    exact (List.forall₂_eq_eq_eq ▸ List.forall₂_map_left_iff.mpr
      (sorted.imp fun _ _ same => same.symm) : _ = _).symm
  rw [ofValue, Entries.keys]
  cases keyFault (entries.map Prod.fst) with
  | some fault => rfl
  | none =>
    dsimp only
    rw [kept, List.mapM_map]
    rfl

theorem keyFault_of_texts {keys : List Scalar} (texts : ∀ key ∈ keys, ∃ name, key = .text name) :
    keyFault keys = none := by
  induction keys with
  | nil => rfl
  | cons first rest ih =>
    obtain ⟨⟨name, rfl⟩, later⟩ := List.forall_mem_cons.mp texts
    cases rest with
    | nil => rfl
    | cons second rest =>
      obtain ⟨other, rfl⟩ := later second List.mem_cons_self
      rw [keyFault]
      exact ih later

theorem ofValue_texts {entries : Record}
    (texts : ∀ entry ∈ entries, ∃ name, entry.1 = .text name) {document : Json} :
    ofValue (.map entries) = .ok document ↔
      ∃ members, List.Forall₂ Stands (sortKeys entries) members ∧ document = .object members := by
  have ordered : keyFault entries.keys = none := by
    apply keyFault_of_texts
    intro key member
    obtain ⟨entry, present, rfl⟩ := List.mem_map.mp member
    exact texts entry present
  have named (members : List (String × Json)) :
      (sortKeys entries).mapM memberOf = .ok members ↔
        List.Forall₂ Stands (sortKeys entries) members := by
    rw [mapM_eq_ok]
    exact forall₂_congr_left fun entry member result =>
      memberOf_of_text (texts entry (mem_sortKeys.mp member))
  rw [ofValue_map_eq, ordered]
  cases read : (sortKeys entries).mapM memberOf with
  | error fault =>
    constructor
    · intro failed
      cases failed
    · rintro ⟨members, stands, -⟩
      rw [(named members).mpr stands] at read
      cases read
  | ok members =>
    constructor
    · rintro ⟨⟩
      exact ⟨members, (named members).mp read, rfl⟩
    · rintro ⟨others, stands, rfl⟩
      rw [(named others).mpr stands] at read
      cases read
      rfl

theorem sortNames_of_stands {entries : Record} {members : List (String × Json)}
    (stands : List.Forall₂ Stands entries members) :
    List.Forall₂ Stands (sortKeys entries) (sortNames members) := by
  refine Sorted.forall₂_sort ?_ stands
  intro left member first right other second
  rw [first.1, second.1]

/-- The document of a map has a member for every entry, in the order of names. -/
theorem ofValue_map {entries : Record} (texts : ∀ entry ∈ entries, ∃ name, entry.1 = .text name)
    {members : List (String × Json)} (stands : List.Forall₂ Stands entries members) :
    ofValue (.map entries) = .ok (.object (sortNames members)) :=
  (ofValue_texts texts).mpr ⟨_, sortNames_of_stands stands, rfl⟩

theorem ofLeaf_of_written {leaf : Scalar} (written : leaf.Written) :
    ∃ document, ofLeaf leaf = .ok document := by
  cases leaf with
  | int value => exact ⟨.int value written, dif_pos written⟩
  | foreign object => exact absurd written id
  | null | bool _ | float _ | text _ => exact ⟨_, rfl⟩

theorem ofLeaf_of_long {value : Int} (long : Number.isShort value = false) :
    ofLeaf (.int value) = .error .integerTooLong := by
  rw [ofLeaf, dif_neg (by simp [long])]

theorem ofValue_list {items : List Value} {document : Json}
    (read : ofValue (.list items) = .ok document) :
    ∃ documents, document = .array documents ∧
      List.Forall₂ (fun item document => ofValue item = .ok document) items documents := by
  rw [ofValue] at read
  obtain ⟨documents, reads, same⟩ := bind_eq_ok.mp read
  exact ⟨documents, (Except.ok.inj same).symm, ofItems_eq_ok.mp reads⟩

theorem names_of_stands {entries : Record} {members : List (String × Json)}
    (stands : List.Forall₂ Stands entries members) :
    entries.keys = (members.map Prod.fst).map .text := by
  induction stands with
  | nil => rfl
  | @cons entry member entries members stand _ ih =>
    simp only [Entries.keys, List.map_cons] at ih ⊢
    rw [stand.1, ih]

theorem names_nodup {entries : Record} {members : List (String × Json)}
    (distinct : entries.keys.Nodup) (stands : List.Forall₂ Stands entries members) :
    (members.map Prod.fst).Nodup := by
  rw [names_of_stands stands] at distinct
  exact distinct.of_map

/-- A plain value that can be written has a document, and every rearrangement of it has the same
one. -/
theorem ofValue_of_rearranged {left right : Value} (plain : left.Plain) (other : right.Plain)
    (written : left.Written) (same : left.Rearranged right) :
    ∃ document, ofValue left = .ok document ∧ ofValue right = .ok document := by
  induction left using byParts generalizing right with
  | scalar leaf =>
    cases same
    obtain ⟨document, read⟩ := ofLeaf_of_written written.leaf
    exact ⟨document, read, read⟩
  | list items ih =>
    cases same with
    | @list _ others parts =>
      have leftPlain := plain.items
      have rightPlain := other.items
      obtain ⟨documents, lefts, rights⟩ := exists_common_images parts
        fun item member other present same =>
          ih item member (leftPlain item member) (rightPlain other present)
            (written.items item member) same
      refine ⟨.array documents, ?_, ?_⟩
      · rw [ofValue, ofItems_eq_ok.mpr lefts]
        rfl
      · rw [ofValue, ofItems_eq_ok.mpr rights]
        rfl
  | map entries ih =>
    cases right with
    | scalar leaf => cases same
    | list items => cases same
    | map others =>
      obtain ⟨middle, order, paired⟩ := rearranged_map_iff.mp same
      obtain ⟨leftTexts, -, leftPlain⟩ := plain.entries
      obtain ⟨rightTexts, distinct, rightPlain⟩ := other.entries
      -- the members are read off the pairs in the order of the right map; those of the left one
      -- are a rearrangement of them, and sorting by name gives both the same order
      obtain ⟨members, middles, rights⟩ :
          ∃ members, List.Forall₂ Stands middle members ∧ List.Forall₂ Stands others members := by
        apply exists_common_images paired
        intro entry member other present paired
        obtain ⟨name, text⟩ := rightTexts other present
        have kept := order.mem_iff.mpr member
        obtain ⟨document, leftRead, rightRead⟩ :=
          ih entry kept (leftPlain entry kept) (rightPlain other present)
            (written.entries entry kept) paired.2
        exact ⟨(name, document), ⟨paired.1.trans text, leftRead⟩, text, rightRead⟩
      obtain ⟨arranged, lefts, permuted⟩ := List.perm_comp_forall₂ order middles
      refine ⟨.object (sortNames members), ?_, ofValue_map rightTexts rights⟩
      rw [ofValue_map leftTexts lefts, sortNames_eq_of_perm permuted (names_nodup distinct rights)]

theorem exists_document {value : Value} (plain : value.Plain) (written : value.Written) :
    ∃ document, ofValue value = .ok document := by
  obtain ⟨document, read, -⟩ := ofValue_of_rearranged plain plain written (.refl value)
  exact ⟨document, read⟩

end Json
end BuildRules
