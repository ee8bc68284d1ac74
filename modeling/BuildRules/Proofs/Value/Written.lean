import BuildRules.Proofs.Returns
import BuildRules.Proofs.Value.Rearranged
import BuildRules.Value.Display
import Mathlib.Algebra.Group.Nat.Defs

namespace BuildRules

namespace Number

theorem isShort_iff {value : Int} : isShort value = true ↔ value.natAbs < 10 ^ maxDigits := by
  have positive : 0 < maxDigits := Nat.succ_pos _
  rw [isShort, decide_eq_true_iff, Nat.length_toDigits_le_iff (by omega) positive]

/-- The least positive integer that has no text. -/
def overlong : Int := (10 ^ maxDigits : Nat)

theorem isShort_overlong : isShort overlong = false := by
  by_contra short
  rw [Bool.not_eq_false, isShort_iff, overlong, Int.natAbs_natCast] at short
  exact Nat.lt_irrefl _ short

@[simp] theorem isShort_zero : isShort 0 = true := by decide

theorem display_eq_ok {value : Int} (short : isShort value = true) :
    display value = .ok (toString value) := by rw [display, if_pos short]

theorem display_overlong : display overlong = .error .integerTooLong := by
  rw [display, isShort_overlong, if_neg Bool.false_ne_true]

end Number

namespace Scalar

/-- A document has leaves of all types but the foreign ones, and no integer without a text. -/
def Written : Scalar → Prop
  | .int value => Number.isShort value = true
  | .foreign _ => False
  | _ => True

instance (leaf : Scalar) : Decidable leaf.Written := by
  cases leaf <;> unfold Written <;> infer_instance

theorem quoted_eq_error {leaf : Scalar} {fault : Value.Fault} (failed : leaf.quoted = .error fault) :
    fault = .integerTooLong ∧ ∃ value, leaf = .int value ∧ Number.isShort value = false := by
  cases leaf with
  | int value =>
    rw [quoted, Number.display] at failed
    split at failed
    next => cases failed
    next long => exact ⟨(Except.error.inj failed).symm, value, rfl, by simpa using long⟩
  | null | bool _ | float _ | text _ | foreign _ => cases failed

theorem display_eq_error {leaf : Scalar} {fault : Value.Fault}
    (failed : leaf.display = .error fault) : leaf.quoted = .error fault := by
  cases leaf with
  | text value | foreign object => cases failed
  | null | bool _ | int _ | float _ => exact failed

theorem display_int (value : Int) : (Scalar.int value).display = Number.display value := rfl

theorem Written.exists_quoted {leaf : Scalar} (written : leaf.Written) :
    ∃ text, leaf.quoted = .ok text := by
  cases shown : leaf.quoted with
  | ok text => exact ⟨text, rfl⟩
  | error fault =>
    obtain ⟨-, value, rfl, long⟩ := quoted_eq_error shown
    exact absurd written (by simp [Written, long])

theorem Written.exists_display {leaf : Scalar} (written : leaf.Written) :
    ∃ text, leaf.display = .ok text := by
  cases shown : leaf.display with
  | ok text => exact ⟨text, rfl⟩
  | error fault =>
    obtain ⟨text, quoted⟩ := written.exists_quoted
    rw [display_eq_error shown] at quoted
    cases quoted

end Scalar

namespace Value

/-- All leaves at any depth can stand in a document. -/
inductive Written : Value → Prop where
  | scalar {leaf : Scalar} (written : leaf.Written) : Written (.scalar leaf)
  | list {items : List Value} (parts : ∀ item ∈ items, Written item) : Written (.list items)
  | map {entries : Record} (keys : ∀ entry ∈ entries, entry.1.Written)
      (parts : ∀ entry ∈ entries, Written entry.2) : Written (.map entries)

namespace Written

theorem leaf {leaf : Scalar} (written : Written (.scalar leaf)) : leaf.Written := by
  cases written with
  | scalar written => exact written

theorem items {items : List Value} (written : Written (.list items)) : ∀ item ∈ items, Written item := by
  cases written with
  | list parts => exact parts

theorem keys {entries : Record} (written : Written (.map entries)) :
    ∀ entry ∈ entries, entry.1.Written := by
  cases written with
  | map keys parts => exact keys

theorem entries {entries : Record} (written : Written (.map entries)) :
    ∀ entry ∈ entries, Written entry.2 := by
  cases written with
  | map keys parts => exact parts

theorem text (content : String) : Written (.text content) := .scalar trivial

theorem null : Written .null := .scalar trivial

theorem int {number : Int} (short : Number.isShort number = true) : Written (.int number) :=
  .scalar short

theorem ofTexts (texts : List String) : Written (.ofTexts texts) :=
  .list (by simp [text])

theorem of_rearranged {left right : Value} (written : left.Written)
    (same : left.Rearranged right) : right.Written := by
  induction left using byParts generalizing right with
  | scalar leaf =>
    cases same
    exact written
  | list items ih =>
    cases same with
    | list parts =>
      refine .list fun other present => ?_
      obtain ⟨item, member, same⟩ := exists_of_forall₂ parts.flip present
      exact ih item member (written.items item member) same
  | map entries ih =>
    cases right with
    | scalar leaf => cases same
    | list items => cases same
    | map others =>
      obtain ⟨middle, order, paired⟩ := rearranged_map_iff.mp same
      refine .map ?_ ?_
      · intro other present
        obtain ⟨entry, member, pair⟩ := exists_of_forall₂ paired.flip present
        exact pair.1 ▸ written.keys entry (order.mem_iff.mpr member)
      · intro other present
        obtain ⟨entry, member, pair⟩ := exists_of_forall₂ paired.flip present
        have kept := order.mem_iff.mpr member
        exact ih entry kept (written.entries entry kept) pair.2

variable {record : Record} {items : List Value} {value fallback : Value} {name : String}

theorem get? (written : (Value.map record).Written) (held : Record.get? record name = some value) :
    value.Written := written.entries _ (Entries.mem_of_find? (Scalar.exact_text name) held)

theorem getD (written : (Value.map record).Written) (other : fallback.Written) :
    ((Record.get? record name).getD fallback).Written := by
  cases held : Record.get? record name with
  | none => exact other
  | some value => exact written.get? held

theorem sequence (written : value.Written) (listed : value.sequence = .ok items) :
    ∀ item ∈ items, item.Written := by
  cases value with
  | scalar leaf =>
    cases leaf with
    | text content =>
      cases listed
      intro item member
      obtain ⟨_, -, rfl⟩ := List.mem_map.mp member
      exact text _
    | _ => cases listed
  | list parts =>
    cases listed
    exact written.items
  | map entries =>
    cases listed
    intro item member
    obtain ⟨entry, present, rfl⟩ := List.mem_map.mp member
    exact .scalar (written.keys entry present)

end Written

theorem quotedItems_eq_mapM (items : List Value) : quotedItems items = items.mapM quoted := by
  induction items with
  | nil => rfl
  | cons item rest ih => rw [quotedItems, List.mapM_cons, ih]; rfl

def quotedEntry (entry : Scalar × Value) : Except Fault String := do
  let key ← entry.1.quoted
  let value ← entry.2.quoted
  .ok (key ++ ": " ++ value)

theorem quotedEntries_eq_mapM (entries : Record) :
    quotedEntries entries = entries.mapM quotedEntry := by
  induction entries with
  | nil => rfl
  | cons entry rest ih =>
    obtain ⟨key, value⟩ := entry
    rw [quotedEntries, List.mapM_cons, ih, quotedEntry]
    cases key.quoted with
    | error fault => rfl
    | ok name => cases value.quoted <;> rfl

/-- What has no text has an integer that has none. -/
theorem quoted_eq_error {value : Value} {fault : Fault} (failed : value.quoted = .error fault) :
    fault = .integerTooLong ∧ ¬ value.Written := by
  induction value using byParts generalizing fault with
  | scalar leaf =>
    obtain ⟨tooLong, number, rfl, long⟩ := Scalar.quoted_eq_error failed
    refine ⟨tooLong, fun written => ?_⟩
    have short : Number.isShort number = true := written.leaf
    rw [long] at short
    cases short
  | list items ih =>
    rw [quoted, quotedItems_eq_mapM, bind_eq_error] at failed
    rcases failed with failed | ⟨_, -, impossible⟩
    · obtain ⟨item, member, failed⟩ := exists_of_mapM_eq_error failed
      obtain ⟨tooLong, unwritten⟩ := ih item member failed
      exact ⟨tooLong, fun written => unwritten (written.items item member)⟩
    · cases impossible
  | map entries ih =>
    rw [quoted, quotedEntries_eq_mapM, bind_eq_error] at failed
    rcases failed with failed | ⟨_, -, impossible⟩
    · obtain ⟨entry, member, failed⟩ := exists_of_mapM_eq_error failed
      rw [quotedEntry, bind_eq_error] at failed
      rcases failed with key | ⟨name, -, failed⟩
      · obtain ⟨tooLong, number, same, long⟩ := Scalar.quoted_eq_error key
        refine ⟨tooLong, fun written => ?_⟩
        have short : entry.1.Written := written.keys entry member
        rw [same, Scalar.Written, long] at short
        cases short
      · rcases bind_eq_error.mp failed with failed | ⟨_, -, impossible⟩
        · obtain ⟨tooLong, unwritten⟩ := ih entry member failed
          exact ⟨tooLong, fun written => unwritten (written.entries entry member)⟩
        · cases impossible
    · cases impossible

theorem display_eq_error {value : Value} {fault : Fault} (failed : value.display = .error fault) :
    fault = .integerTooLong ∧ ¬ value.Written := by
  cases value with
  | scalar leaf =>
    have quoted : (Value.scalar leaf).quoted = .error fault := Scalar.display_eq_error failed
    exact quoted_eq_error quoted
  | list items => exact quoted_eq_error failed
  | map entries => exact quoted_eq_error failed

theorem Written.exists_quoted {value : Value} (written : value.Written) :
    ∃ text, value.quoted = .ok text := by
  cases shown : value.quoted with
  | ok text => exact ⟨text, rfl⟩
  | error fault => exact absurd written (quoted_eq_error shown).2

theorem Written.exists_display {value : Value} (written : value.Written) :
    ∃ text, value.display = .ok text := by
  cases shown : value.display with
  | ok text => exact ⟨text, rfl⟩
  | error fault => exact absurd written (display_eq_error shown).2

end Value
end BuildRules
