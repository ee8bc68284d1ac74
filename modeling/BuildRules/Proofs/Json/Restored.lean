import BuildRules.Proofs.Json.Canonical
import BuildRules.Proofs.Json.Reading
import BuildRules.Proofs.Value.Reordered

/-! A plain value that can be written is read again as the same value up to the order of entries,
and only such values have one document. -/
namespace BuildRules

namespace Json

open Value

theorem itemValues_eq_map (items : List Json) : itemValues items = items.map toValue := by
  induction items with
  | nil => rfl
  | cons item rest ih => rw [itemValues, ih, List.map_cons]

def entryOf (member : String × Json) : Scalar × Value := (.text member.1, member.2.toValue)

theorem memberValues_eq_map (members : List (String × Json)) :
    memberValues members = members.map entryOf := by
  induction members with
  | nil => rfl
  | cons member rest ih => rw [memberValues, ih, List.map_cons, entryOf]

theorem toValue_ofLeaf {leaf : Scalar} {document : Json} (read : ofLeaf leaf = .ok document) :
    document.toValue = .scalar leaf := by
  cases leaf with
  | int value =>
    rw [ofLeaf] at read
    split at read <;> cases read
    rfl
  | foreign object => cases read
  | null | bool _ | float _ | text _ =>
    cases read
    rfl

theorem keys_entryOf_nodup {members : List (String × Json)}
    (distinct : (members.map Prod.fst).Nodup) :
    (Entries.keys (members.map entryOf)).Nodup := by
  have names : Prod.fst ∘ entryOf = Scalar.text ∘ Prod.fst := rfl
  rw [Entries.keys, List.map_map, names, ← List.map_map]
  exact distinct.map fun _ _ same => Scalar.text.inj same

/-- Names that differ are all kept. -/
theorem toValue_object {members : List (String × Json)} (distinct : (members.map Prod.fst).Nodup) :
    (object members).toValue = .map (members.map entryOf) := by
  rw [toValue, memberValues_eq_map, Entries.ofList_of_distinct _ (keys_entryOf_nodup distinct)]
  intro entry member
  obtain ⟨source, -, rfl⟩ := List.mem_map.mp member
  exact Scalar.exact_text source.1

/-- The members of a map's document come in an order of its entries. -/
theorem sorted_of_ofValue {entries : Record} (plain : (Value.map entries).Plain)
    {document : Json} (read : ofValue (.map entries) = .ok document) :
    ∃ members middle, document = .object members ∧ (members.map Prod.fst).Nodup ∧
      entries.Perm middle ∧ List.Forall₂ Stands middle members := by
  obtain ⟨texts, distinct, -⟩ := plain.entries
  obtain ⟨members, stands, rfl⟩ := (ofValue_texts texts).mp read
  have order := Sorted.sort_perm (fun left right => keyLe left.1 right.1) entries
  exact ⟨members, _, rfl, names_nodup ((order.map Prod.fst).nodup_iff.mpr distinct) stands,
    order.symm, stands⟩

theorem written_ofLeaf {leaf : Scalar} {document : Json} (read : ofLeaf leaf = .ok document) :
    leaf.Written := by
  cases leaf with
  | int value =>
    rw [ofLeaf] at read
    split at read
    next short => exact short
    next => cases read
  | foreign object => cases read
  | null | bool _ | float _ | text _ => trivial

theorem reordered_of_ofValue {value : Value} (plain : value.Plain) {document : Json}
    (read : ofValue value = .ok document) : Reordered value document.toValue := by
  induction value using byParts generalizing document with
  | scalar leaf =>
    rw [toValue_ofLeaf read]
    exact .scalar (written_ofLeaf read)
  | list items ih =>
    obtain ⟨documents, rfl, reads⟩ := ofValue_list read
    rw [toValue, itemValues_eq_map]
    apply Reordered.list
    rw [List.forall₂_map_right_iff]
    exact forall₂_imp_mem reads fun item member _ _ read => ih item member (plain.items item member) read
  | map entries ih =>
    -- the members stand for the entries in the order of their names, so the entries are brought
    -- in that order first
    obtain ⟨members, middle, rfl, distinct, order, stands⟩ := sorted_of_ofValue plain read
    obtain ⟨-, -, parts⟩ := plain.entries
    have paired : List.Forall₂ (fun entry field => entry.1 = field.1 ∧ Reordered entry.2 field.2)
        middle (members.map entryOf) := by
      rw [List.forall₂_map_right_iff]
      apply forall₂_imp_mem stands
      intro entry member document _ stand
      have present := order.mem_iff.mpr member
      exact ⟨stand.1, ih entry present (parts entry present) stand.2⟩
    rw [toValue_object distinct]
    have same : Rearranged (.map entries) (.map (members.map entryOf)) := rearranged_map_iff.mpr
      ⟨middle, order, paired.imp fun _ _ pair => ⟨pair.1, pair.2.same⟩⟩
    refine ⟨plain, .map ?_ (keys_entryOf_nodup distinct) ?_, .map ?_ ?_, same⟩
    · intro entry member
      obtain ⟨source, -, rfl⟩ := List.mem_map.mp member
      exact ⟨source.1, rfl⟩
    · intro entry member
      obtain ⟨source, -, pair⟩ := exists_of_forall₂ paired.flip member
      exact pair.2.rightPlain
    · intro entry member
      obtain ⟨name, text⟩ := plain.entries.1 entry member
      rw [text]
      trivial
    · intro entry member
      obtain ⟨source, -, pair⟩ := exists_of_forall₂ paired (order.mem_iff.mp member)
      exact pair.2.written

/-- Plain values with one document are rearrangements of each other, since both are arrangements
of what the document is read as. -/
theorem rearranged_of_ofValue {left right : Value} (plain : left.Plain) (other : right.Plain)
    {document : Json} (leftRead : ofValue left = .ok document)
    (rightRead : ofValue right = .ok document) : left.Rearranged right := by
  have restored := (reordered_of_ofValue other rightRead).symm
  exact (reordered_of_ofValue plain leftRead).same.trans restored.same

variable {layout : Layout} {value : Value}

/-- A plain value is written just when all its leaves can be, and what is written is read back. -/
theorem read_write (separates : layout.Separates) (plain : value.Plain) :
    (value.Written ∧ ∃ text stored, write layout value = .ok text ∧ read text = .ok stored ∧
      Reordered value stored) ∨
    (¬ value.Written ∧ ∃ fault, write layout value = .error fault) := by
  cases made : ofValue value with
  | ok document =>
    have reordered := reordered_of_ofValue plain made
    refine .inl ⟨reordered.written, render layout document, document.toValue, ?_, ?_, reordered⟩
    · rw [write, made]
      rfl
    · rw [read, parse_render separates]
      rfl
  | error fault =>
    refine .inr ⟨fun written => ?_, fault, by rw [write, made]; rfl⟩
    obtain ⟨document, again⟩ := exists_document plain written
    rw [made] at again
    cases again

end Json
end BuildRules
