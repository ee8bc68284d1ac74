import BuildRules.Proofs.Value.Rearranged

namespace BuildRules

namespace Scalar

variable {left middle right : Scalar}

/-- Objects that are equal, as far as a configuration can tell. -/
def Foreign.Alike (left right : Foreign) : Prop :=
  left.typeName = right.typeName ∧ left.identity = right.identity

/-- Two keys are the same when they are equal, numbers at one place, or objects alike. -/
theorem same_iff : Key.same left right = true ↔
    left = right ∨ (∃ place, left.place? = some place ∧ right.place? = some place) ∨
      ∃ object other, left = foreign object ∧ right = foreign other ∧
        Foreign.Alike object other := by
  change (same left right || left == right) = true ↔ _
  rw [Bool.or_eq_true, beq_iff_eq]
  constructor
  · rintro (equal | rfl)
    · unfold same at equal
      split at equal
      next => exact .inl rfl
      next first second =>
        rw [beq_iff_eq] at equal
        exact .inl (congrArg Scalar.text equal)
      next object other =>
        rw [Bool.and_eq_true, beq_iff_eq, beq_iff_eq] at equal
        exact .inr (.inr ⟨object, other, rfl, rfl, equal⟩)
      next =>
        split at equal
        next place other leftPlace rightPlace =>
          have same : place = other := beq_iff_eq.mp equal
          exact .inr (.inl ⟨place, leftPlace, same ▸ rightPlace⟩)
        next => cases equal
    · exact .inl rfl
  · rintro (rfl | ⟨place, first, second⟩ | ⟨object, other, rfl, rfl, typeName, identity⟩)
    · exact .inr rfl
    · left
      unfold same
      split
      next => cases first
      next => cases first
      next => cases first
      next => simp [first, second]
    · exact .inl (by simp [same, typeName, identity])

theorem same_refl (key : Scalar) : Key.same key key = true := same_iff.mpr (.inl rfl)

theorem same_symm (same : Key.same left right = true) : Key.same right left = true := by
  rw [same_iff] at same ⊢
  rcases same with rfl | ⟨place, first, second⟩ | ⟨object, other, rfl, rfl, typeName, identity⟩
  · exact .inl rfl
  · exact .inr (.inl ⟨place, second, first⟩)
  · exact .inr (.inr ⟨other, object, rfl, rfl, typeName.symm, identity.symm⟩)

theorem same_trans (first : Key.same left middle = true) (second : Key.same middle right = true) :
    Key.same left right = true := by
  rw [same_iff] at first second ⊢
  rcases first with rfl | ⟨place, before, between⟩ | ⟨object, other, rfl, rfl, alike⟩
  · exact second
  · rcases second with rfl | ⟨other, again, after⟩ | ⟨object, other, rfl, rfl, alike⟩
    · exact .inr (.inl ⟨place, before, between⟩)
    · rw [between] at again
      exact .inr (.inl ⟨place, before, again ▸ after⟩)
    · cases between
  · rcases second with rfl | ⟨place, between, after⟩ | ⟨object, last, same, rfl, onward⟩
    · exact .inr (.inr ⟨_, _, rfl, rfl, alike⟩)
    · cases between
    · cases same
      exact .inr (.inr ⟨_, _, rfl, rfl, alike.1.trans onward.1, alike.2.trans onward.2⟩)

theorem same_comm (left right : Scalar) : Key.same left right = Key.same right left := by
  rw [Bool.eq_iff_iff]
  exact ⟨same_symm, same_symm⟩

/-- The same keys are the same as the same others. -/
theorem same_congr (same : Key.same left right = true) (other : Scalar) :
    Key.same other left = Key.same other right := by
  rw [Bool.eq_iff_iff]
  exact ⟨fun before => same_trans before same, fun before => same_trans before (same_symm same)⟩

end Scalar

namespace Entries

section Lookup

variable {κ α : Type} [Key κ] {key : κ} {value : α} {entries front back : Entries κ α}

theorem find?_append (front back : Entries κ α) (key : κ) :
    find? (front ++ back) key = (find? front key).or (find? back key) := by
  induction front with
  | nil => rfl
  | cons entry front ih =>
    rw [List.cons_append, find?, find?]
    split
    · rfl
    · exact ih

theorem find?_eq_none_iff :
    find? entries key = none ↔ ∀ entry ∈ entries, Key.same entry.1 key = false := by
  induction entries with
  | nil => simp [find?]
  | cons entry rest ih =>
    rw [find?, List.forall_mem_cons]
    split
    next same => simp [same]
    next apart => simp [ih, apart]

/-- An entry that is found, with all that stands before and after it. -/
theorem split_of_find? (found : find? entries key = some value) :
    ∃ front candidate back, entries = front ++ (candidate, value) :: back ∧
      Key.same candidate key = true ∧ find? front key = none := by
  induction entries with
  | nil => cases found
  | cons entry rest ih =>
    obtain ⟨candidate, held⟩ := entry
    rw [find?] at found
    split at found
    next same =>
      cases found
      exact ⟨[], candidate, rest, rfl, same, rfl⟩
    next apart =>
      obtain ⟨front, other, back, rfl, same, missing⟩ := ih found
      exact ⟨(candidate, held) :: front, other, back, rfl, same, by rw [find?, if_neg apart, missing]⟩

theorem exists_of_find? (found : find? entries key = some value) :
    ∃ candidate, (candidate, value) ∈ entries ∧ Key.same candidate key = true := by
  obtain ⟨front, candidate, back, rfl, same, -⟩ := split_of_find? found
  exact ⟨candidate, by simp, same⟩

theorem insert_of_absent (absent : find? entries key = none) :
    insert entries key value = entries ++ [(key, value)] := by
  induction entries with
  | nil => rfl
  | cons entry rest ih =>
    obtain ⟨candidate, held⟩ := entry
    rw [find?] at absent
    split at absent
    next => cases absent
    next apart => rw [insert, if_neg apart, ih absent, List.cons_append]

theorem insert_of_split {candidate : κ} {old : α} (missing : find? front key = none)
    (same : Key.same candidate key = true) :
    insert (front ++ (candidate, old) :: back) key value = front ++ (candidate, value) :: back := by
  induction front with
  | nil => rw [List.nil_append, insert, if_pos same, List.nil_append]
  | cons entry front ih =>
    obtain ⟨other, held⟩ := entry
    rw [find?] at missing
    split at missing
    next => cases missing
    next apart => rw [List.cons_append, insert, if_neg apart, ih missing, List.cons_append]

theorem insert_of_find? (found : find? entries key = some value) :
    insert entries key value = entries := by
  obtain ⟨front, candidate, back, rfl, same, missing⟩ := split_of_find? found
  exact insert_of_split missing same

theorem insertNew_eq_insert (entries : Entries κ α) (key : κ) (value : α) :
    insertNew entries key value = insert entries key ((find? entries key).getD value) := by
  rw [insertNew, has]
  cases found : find? entries key with
  | none => rfl
  | some held => exact (insert_of_find? found).symm

theorem has_eq_any (entries : Entries κ α) (key : κ) :
    has entries key = entries.any fun entry => Key.same entry.1 key := by
  rw [Bool.eq_iff_iff, List.any_eq_true, has, ← not_iff_not, Bool.not_eq_true,
    Option.isSome_eq_false_iff, Option.isNone_iff_eq_none, find?_eq_none_iff]
  simp

end Lookup

variable {α : Type} {left right key : Scalar} {value : α} {entries : Entries Scalar α}

def Apart (entries : Entries Scalar α) : Prop :=
  entries.Pairwise fun entry other => Key.same entry.1 other.1 = false

theorem find?_congr (same : Key.same left right = true) (entries : Entries Scalar α) :
    find? entries left = find? entries right := by
  induction entries with
  | nil => rfl
  | cons entry rest ih => rw [find?, find?, ih, Scalar.same_congr same]

theorem find?_of_mem (apart : Apart entries) {entry : Scalar × α} (member : entry ∈ entries)
    (same : Key.same entry.1 key = true) : find? entries key = some entry.2 := by
  induction entries with
  | nil => cases member
  | cons head rest ih =>
    obtain ⟨first, later⟩ := List.pairwise_cons.mp apart
    rcases List.mem_cons.mp member with rfl | member
    · rw [find?, if_pos same]
    · have other : ¬ Key.same head.1 key = true := by
        intro equal
        have both := Scalar.same_trans equal (Scalar.same_symm same)
        rw [first entry member] at both
        cases both
      rw [find?, if_neg other, ih later member]

end Entries

/-- No map has the same key twice, at any depth. -/
inductive Value.Keyed : Value → Prop where
  | scalar (leaf : Scalar) : Keyed (.scalar leaf)
  | list {items : List Value} (parts : ∀ item ∈ items, Keyed item) : Keyed (.list items)
  | map {entries : Record} (apart : Entries.Apart entries)
      (parts : ∀ entry ∈ entries, Keyed entry.2) : Keyed (.map entries)

theorem Value.Keyed.entries {entries : Record} (keyed : Keyed (.map entries)) :
    Entries.Apart entries ∧ ∀ entry ∈ entries, Keyed entry.2 := by
  cases keyed with
  | map apart parts => exact ⟨apart, parts⟩

theorem Value.Keyed.of_find? {entries : Record} {key : Scalar} {value : Value}
    (keyed : Keyed (.map entries)) (found : Entries.find? entries key = some value) :
    Keyed value := by
  obtain ⟨candidate, member, -⟩ := Entries.exists_of_find? found
  exact keyed.entries.2 (candidate, value) member

theorem Value.Plain.keyed {value : Value} (plain : value.Plain) : value.Keyed := by
  induction value using byParts with
  | scalar leaf => exact .scalar leaf
  | list items ih => exact .list fun item member => ih item member (plain.items item member)
  | map entries ih =>
    obtain ⟨texts, distinct, parts⟩ := plain.entries
    refine .map ?_ fun entry member => ih entry member (parts entry member)
    apply (List.pairwise_map.mp distinct).imp_of_mem
    intro entry other member present apart
    obtain ⟨name, text⟩ := texts other present
    rw [← Bool.not_eq_true, text]
    exact fun same => apart (((Scalar.exact_text name entry.1).mp same).trans text.symm)

end BuildRules
