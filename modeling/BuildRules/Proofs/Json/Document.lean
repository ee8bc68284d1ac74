import BuildRules.Proofs.Json.Restored

namespace BuildRules

namespace Scalar

/-- Keys that can be sorted together. -/
inductive Family where
  | number | text
deriving DecidableEq

def family? : Scalar → Option Family
  | .null | .foreign _ => none
  | .bool _ | .int _ | .float _ => some .number
  | .text _ => some .text

/-- It is decided which of two keys comes first. -/
def Comparable (key other : Scalar) : Prop := ∃ strictly, key.before other = .ok strictly

theorem before_outcome (key other : Scalar) :
    key.before other = .error (.unordered key.kind other.kind) ∨ key.Comparable other := by
  unfold Comparable before
  split
  · exact .inr ⟨_, rfl⟩
  iterate 6 exact .inl rfl
  · split
    · exact .inr ⟨_, rfl⟩
    · exact .inr ⟨_, rfl⟩

theorem before_eq_error {key other : Scalar} {fault : Value.Fault}
    (failed : key.before other = .error fault) :
    fault = .unordered key.kind other.kind ∧ ¬ key.Comparable other := by
  have apart : ¬ key.Comparable other := fun ⟨strictly, ordered⟩ => by
    rw [ordered] at failed
    cases failed
  rcases before_outcome key other with unordered | comparable
  · exact ⟨Except.error.inj (failed.symm.trans unordered), apart⟩
  · exact absurd comparable apart

theorem comparable_iff {key other : Scalar} :
    key.Comparable other ↔ ∃ family, key.family? = some family ∧ other.family? = some family := by
  constructor
  · rintro ⟨strictly, ordered⟩
    cases key <;> cases other <;> first | exact ⟨_, rfl, rfl⟩ | cases ordered
  · rintro ⟨family, first, second⟩
    rcases before_outcome key other with failed | comparable
    · cases key <;> cases other <;> cases first <;> cases second
      all_goals
        simp only [before] at failed
        first
        | cases failed
        | split at failed <;> cases failed
    · exact comparable

theorem Comparable.trans {key middle other : Scalar} (first : key.Comparable middle)
    (second : middle.Comparable other) : key.Comparable other := by
  obtain ⟨family, key, middle⟩ := comparable_iff.mp first
  obtain ⟨same, again, other⟩ := comparable_iff.mp second
  cases middle.symm.trans again
  exact comparable_iff.mpr ⟨family, key, other⟩

end Scalar

namespace Value

/-- In each map at any depth all keys can be compared. -/
inductive Ordered : Value → Prop where
  | scalar (leaf : Scalar) : Ordered (.scalar leaf)
  | list {items : List Value} (parts : ∀ item ∈ items, Ordered item) : Ordered (.list items)
  | map {entries : Record} (comparable : entries.keys.Pairwise Scalar.Comparable)
      (parts : ∀ entry ∈ entries, Ordered entry.2) : Ordered (.map entries)

end Value

namespace Json

open Value Scalar

/-- A fault of the keys is found between neighbours, and there is none just when all keys can
be compared. -/
theorem keyFault_eq_none_iff {keys : List Scalar} :
    keyFault keys = none ↔ keys.Pairwise Comparable := by
  have transitive : IsTrans Scalar Comparable := ⟨fun _ _ _ => Comparable.trans⟩
  rw [← List.isChain_iff_pairwise]
  fun_induction keyFault keys with
  | case1 first second rest fault failed =>
    have apart := (before_eq_error failed).2
    simp [apart]
  | case2 first second rest strictly ordered ih =>
    have comparable : first.Comparable second := ⟨strictly, ordered⟩
    simp [comparable, ih]
  | case3 keys short =>
    match keys, short with
    | [], _ => simp
    | [key], _ => simp
    | first :: second :: rest, short => exact absurd rfl (short first second rest)

theorem ofItems_eq_mapM (items : List Value) : ofItems items = items.mapM ofValue := by
  induction items with
  | nil => rfl
  | cons item rest ih => rw [ofItems, List.mapM_cons, ih]; rfl

theorem keyText_of_written {key : Scalar} (written : key.Written) :
    ∃ name, keyText key = .ok name := by
  cases key with
  | int value => exact ⟨_, Number.display_eq_ok written⟩
  | foreign object => exact absurd written id
  | null | bool _ | float _ | text _ => exact ⟨_, rfl⟩

theorem written_of_keyText {key : Scalar} {name : String} (text : keyText key = .ok name) :
    key.Written := by
  cases key with
  | int value =>
    rw [keyText, Number.display] at text
    split at text
    next short => exact short
    next => cases text
  | foreign object => cases text
  | null | bool _ | float _ | text _ => trivial

theorem settled_of_ofValue {value : Value} {document : Json} (read : ofValue value = .ok document) :
    Ordered value ∧ Written value := by
  induction value using byParts generalizing document with
  | scalar leaf => exact ⟨.scalar leaf, .scalar (written_ofLeaf read)⟩
  | list items ih =>
    rw [ofValue, ofItems_eq_mapM] at read
    obtain ⟨documents, reads, -⟩ := bind_eq_ok.mp read
    have each : ∀ item ∈ items, Ordered item ∧ Written item := by
      intro item member
      obtain ⟨document, -, read⟩ := exists_of_forall₂ (mapM_eq_ok.mp reads) member
      exact ih item member read
    exact ⟨.list fun item member => (each item member).1, .list fun item member => (each item member).2⟩
  | map entries ih =>
    rw [ofValue_map_eq] at read
    split at read
    next => cases read
    next comparable =>
      obtain ⟨members, reads⟩ : ∃ members, (sortKeys entries).mapM memberOf = .ok members := by
        cases made : (sortKeys entries).mapM memberOf with
        | ok members => exact ⟨members, rfl⟩
        | error fault =>
          rw [made] at read
          cases read
      have each : ∀ entry ∈ entries, entry.1.Written ∧ Ordered entry.2 ∧ Written entry.2 := by
        intro entry member
        obtain ⟨made, -, read⟩ := exists_of_forall₂ (mapM_eq_ok.mp reads) (mem_sortKeys.mpr member)
        obtain ⟨name, document⟩ := memberOf_eq_ok.mp read
        exact ⟨written_of_keyText name, ih entry member document⟩
      exact ⟨.map (keyFault_eq_none_iff.mp comparable) fun entry member => (each entry member).2.1,
        .map (fun entry member => (each entry member).1) fun entry member => (each entry member).2.2⟩

theorem document_of_settled {value : Value} (ordered : Ordered value) (written : Written value) :
    ∃ document, ofValue value = .ok document := by
  induction value using byParts with
  | scalar leaf => exact ofLeaf_of_written written.leaf
  | list items ih =>
    cases ordered with
    | list parts =>
      obtain ⟨documents, reads⟩ := exists_forall₂ fun item member =>
        ih item member (parts item member) (written.items item member)
      exact ⟨.array documents, by rw [ofValue, ofItems_eq_mapM, mapM_eq_ok.mpr reads]; rfl⟩
  | map entries ih =>
    cases ordered with
    | map comparable parts =>
      obtain ⟨members, reads⟩ : ∃ members, List.Forall₂ (fun entry member =>
          memberOf entry = .ok member) (sortKeys entries) members := by
        apply exists_forall₂
        intro entry kept
        have member := mem_sortKeys.mp kept
        obtain ⟨name, text⟩ := keyText_of_written (written.keys entry member)
        obtain ⟨document, read⟩ :=
          ih entry member (parts entry member) (written.entries entry member)
        exact ⟨(name, document), memberOf_eq_ok.mpr ⟨text, read⟩⟩
      refine ⟨.object members, ?_⟩
      rw [ofValue_map_eq, keyFault_eq_none_iff.mpr comparable, mapM_eq_ok.mpr reads]
      rfl

theorem exists_document_iff {value : Value} :
    (∃ document, ofValue value = .ok document) ↔ Ordered value ∧ Written value :=
  ⟨fun ⟨_, read⟩ => settled_of_ofValue read, fun settled => document_of_settled settled.1 settled.2⟩

end Json
end BuildRules
