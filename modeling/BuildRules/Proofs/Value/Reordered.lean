import BuildRules.Proofs.Value.Written

namespace BuildRules.Value

/-- Plain values that can be written and are equal up to the order of entries at every depth. -/
structure Reordered (left right : Value) : Prop where
  leftPlain : left.Plain
  rightPlain : right.Plain
  written : left.Written
  same : left.Rearranged right

namespace Reordered

variable {left right : Value} {items others : List Value} {entries fields : Record}

theorem scalar {leaf : Scalar} (written : leaf.Written) :
    Reordered (.scalar leaf) (.scalar leaf) :=
  ⟨.scalar leaf, .scalar leaf, .scalar written, .scalar leaf⟩

theorem null : Reordered .null .null := scalar trivial

theorem rightWritten (reordered : Reordered left right) : right.Written :=
  reordered.written.of_rearranged reordered.same

theorem symm (reordered : Reordered left right) : Reordered right left :=
  ⟨reordered.rightPlain, reordered.leftPlain, reordered.rightWritten, reordered.same.symm⟩

theorem list (parts : List.Forall₂ Reordered items others) :
    Reordered (.list items) (.list others) := by
  refine ⟨.list fun item member => ?_, .list fun other member => ?_,
    .list fun item member => ?_, .list (parts.imp fun _ _ part => part.same)⟩
  · obtain ⟨_, -, part⟩ := exists_of_forall₂ parts member
    exact part.leftPlain
  · obtain ⟨_, -, part⟩ := exists_of_forall₂ parts.flip member
    exact part.rightPlain
  · obtain ⟨_, -, part⟩ := exists_of_forall₂ parts member
    exact part.written

/-- Reordered values have one shape. -/
inductive Shape : Value → Value → Prop where
  | scalar (leaf : Scalar) (written : leaf.Written) : Shape (.scalar leaf) (.scalar leaf)
  | list {items others : List Value} (parts : List.Forall₂ Reordered items others) :
      Shape (.list items) (.list others)
  | map {entries fields : Record} (parts : Reordered (.map entries) (.map fields)) :
      Shape (.map entries) (.map fields)

theorem shape (reordered : Reordered left right) : Shape left right := by
  obtain ⟨leftPlain, rightPlain, written, same⟩ := reordered
  cases same with
  | scalar leaf => exact .scalar leaf written.leaf
  | list parts =>
    refine .list (forall₂_imp_mem parts fun item member other present same => ?_)
    exact ⟨leftPlain.items item member, rightPlain.items other present,
      written.items item member, same⟩
  | map order keys parts => exact .map ⟨leftPlain, rightPlain, written, .map order keys parts⟩

/-- Both values are absent, or both are there in one shape. -/
inductive Found : Option Value → Option Value → Prop where
  | absent : Found none none
  | scalar (leaf : Scalar) (written : leaf.Written) :
      Found (some (.scalar leaf)) (some (.scalar leaf))
  | list {items others : List Value} (parts : List.Forall₂ Reordered items others) :
      Found (some (.list items)) (some (.list others))
  | map {entries fields : Record} (parts : Reordered (.map entries) (.map fields)) :
      Found (some (.map entries)) (some (.map fields))

theorem found (reordered : Reordered left right) : Found (some left) (some right) := by
  cases reordered.shape with
  | scalar leaf written => exact .scalar leaf written
  | list parts => exact .list parts
  | map parts => exact .map parts

/-- An absent value counts as null. -/
theorem Found.getD {left right : Option Value} (found : Found left right) :
    Reordered (left.getD .null) (right.getD .null) := by
  cases found with
  | absent => exact .null
  | scalar leaf written => exact .scalar written
  | list parts => exact .list parts
  | map parts => exact parts

/-- A leaf is the same in both. -/
theorem Found.eq_of_leaf {left right : Option Value} (found : Found left right)
    (leaf : ∀ value, left = some value → ∃ leaf, value = .scalar leaf) : left = right := by
  cases found with
  | absent => rfl
  | scalar leaf => rfl
  | list => obtain ⟨_, impossible⟩ := leaf _ rfl; cases impossible
  | map => obtain ⟨_, impossible⟩ := leaf _ rfl; cases impossible

theorem entries_perm (reordered : Reordered (.map entries) (.map fields)) :
    ∃ middle, entries.Perm middle ∧
      List.Forall₂ (fun entry field => entry.1 = field.1 ∧ Reordered entry.2 field.2) middle
        fields := by
  obtain ⟨middle, order, paired⟩ := rearranged_map_iff.mp reordered.same
  obtain ⟨-, -, leftParts⟩ := reordered.leftPlain.entries
  obtain ⟨-, -, rightParts⟩ := reordered.rightPlain.entries
  refine ⟨middle, order, forall₂_imp_mem paired fun entry member field present pair => ?_⟩
  have kept := order.mem_iff.mpr member
  exact ⟨pair.1, leftParts entry kept, rightParts field present,
    reordered.written.entries entry kept, pair.2⟩

/-- There is one order of one entry. -/
theorem eq_of_single {key : Scalar} {leaf : Scalar}
    (reordered : Reordered (.map [(key, .scalar leaf)]) (.map fields)) :
    fields = [(key, .scalar leaf)] := by
  obtain ⟨middle, order, paired⟩ := reordered.entries_perm
  obtain rfl := List.singleton_perm.mp order
  obtain ⟨⟨_, other⟩, _, ⟨rfl, same⟩, rest, rfl⟩ := List.forall₂_cons_left_iff.mp paired
  cases rest
  cases same.shape
  rfl

theorem found_of_paired {key : Scalar}
    (paired : List.Forall₂ (fun entry field => entry.1 = field.1 ∧ Reordered entry.2 field.2)
      entries fields) : Found (Entries.find? entries key) (Entries.find? fields key) := by
  induction paired with
  | nil => exact .absent
  | @cons entry field _ _ pair _ ih =>
    rw [Entries.find?, Entries.find?, pair.1]
    split
    · exact pair.2.found
    · exact ih

/-- What is found under a name does not depend on the order. -/
theorem get? (reordered : Reordered (.map entries) (.map fields)) (name : String) :
    Found (Record.get? entries name) (Record.get? fields name) := by
  obtain ⟨middle, order, paired⟩ := reordered.entries_perm
  obtain ⟨-, distinct, -⟩ := reordered.leftPlain.entries
  rw [Record.get?, Entries.find?_of_perm (Scalar.exact_text name) order distinct]
  exact found_of_paired paired

theorem get?_scalar (reordered : Reordered (.map entries) (.map fields)) {name : String}
    {leaf : Scalar} (held : Record.get? entries name = some (.scalar leaf)) :
    Record.get? fields name = some (.scalar leaf) := by
  have found := reordered.get? name
  rw [held] at found
  generalize Record.get? fields name = kept at found
  cases found
  rfl

theorem truthy_eq (reordered : Reordered left right) : left.truthy = right.truthy := by
  cases reordered.shape with
  | scalar leaf => rfl
  | list parts => cases parts <;> rfl
  | @map entries fields parts =>
    obtain ⟨middle, order, paired⟩ := parts.entries_perm
    have lengths : entries.length = fields.length := order.length_eq.trans paired.length_eq
    rw [truthy, truthy, Bool.eq_iff_iff]
    simp only [Bool.not_eq_true', List.isEmpty_eq_false_iff, ← List.length_pos_iff, lengths]

theorem Found.truthy_eq {left right : Option Value} (found : Found left right)
    (standard : Bool) : (left.getD (.bool standard)).truthy = (right.getD (.bool standard)).truthy := by
  cases found with
  | absent => rfl
  | scalar leaf => rfl
  | list parts => exact (Reordered.list parts).truthy_eq
  | map parts => exact parts.truthy_eq

theorem isNull_eq (reordered : Reordered left right) : left.isNull = right.isNull := by
  cases reordered.shape <;> rfl

theorem kind_eq (reordered : Reordered left right) : left.kind = right.kind := by
  cases reordered.shape <;> rfl

theorem asTexts?_eq (parts : List.Forall₂ Reordered items others) :
    asTexts? items = asTexts? others := by
  induction parts with
  | nil => rfl
  | @cons item other items others same _ ih =>
    have texts : item.asText? = other.asText? := by cases same.shape <;> rfl
    simp only [asTexts?, List.mapM_cons, texts] at ih ⊢
    rw [ih]

end Reordered
end BuildRules.Value
