import BuildRules.Proofs.Json.Restored
import BuildRules.Time.Timestamp

namespace BuildRules

/-- Texts as keys, each of them once, and leaves that can be written. -/
structure Value.Storable (value : Value) : Prop where
  plain : value.Plain
  written : value.Written

namespace Value.Storable

variable {record additions : Record} {value : Value}

theorem scalar {leaf : Scalar} (written : leaf.Written) : (Value.scalar leaf).Storable :=
  ⟨.scalar leaf, .scalar written⟩

theorem text (content : String) : (Value.text content).Storable := scalar trivial

theorem null : Value.null.Storable := scalar trivial

theorem bool (flag : Bool) : (Value.bool flag).Storable := scalar trivial

theorem int {number : Int} (short : Number.isShort number = true) :
    (Value.int number).Storable := scalar short

theorem ofText? (content : Option String) : (Value.ofText? content).Storable := by
  cases content with
  | none => exact null
  | some content => exact text content

theorem list {items : List Value} (parts : ∀ item ∈ items, item.Storable) :
    (Value.list items).Storable :=
  ⟨.list fun item member => (parts item member).plain,
    .list fun item member => (parts item member).written⟩

theorem ofTexts (contents : List String) : (Value.ofTexts contents).Storable := by
  refine list fun item member => ?_
  obtain ⟨content, -, rfl⟩ := List.mem_map.mp member
  exact text content

theorem map (texts : ∀ entry ∈ record, ∃ name, entry.1 = .text name) (distinct : record.keys.Nodup)
    (parts : ∀ entry ∈ record, entry.2.Storable) : (Value.map record).Storable :=
  ⟨.map texts distinct fun entry member => (parts entry member).plain,
    .map (fun entry member => by obtain ⟨name, text⟩ := texts entry member; rw [text]; trivial)
      fun entry member => (parts entry member).written⟩

theorem entries (storable : (Value.map record).Storable) :
    ∀ entry ∈ record, (∃ name, entry.1 = .text name) ∧ entry.2.Storable := by
  obtain ⟨texts, -, parts⟩ := storable.plain.entries
  exact fun entry member =>
    ⟨texts entry member, parts entry member, storable.written.entries entry member⟩

theorem ofFields {fields : List (String × Value)} (distinct : (fields.map Prod.fst).Nodup)
    (parts : ∀ field ∈ fields, field.2.Storable) :
    (Value.ofFields fields).Storable := by
  have keys : (Record.ofFields fields).keys = (fields.map Prod.fst).map .text := by
    simp [Record.ofFields, Entries.keys]
  refine map ?_ ?_ ?_
  · intro entry member
    obtain ⟨field, -, rfl⟩ := List.mem_map.mp member
    exact ⟨field.1, rfl⟩
  · rw [keys]
    exact distinct.map fun _ _ same => Scalar.text.inj same
  · intro entry member
    obtain ⟨field, present, rfl⟩ := List.mem_map.mp member
    exact parts field present

theorem field (name : String) (storable : value.Storable) :
    (Value.map [(.text name, value)]).Storable :=
  map (List.forall_mem_singleton.mpr ⟨name, rfl⟩) (List.nodup_singleton _)
    (List.forall_mem_singleton.mpr storable)

theorem insert (storable : (Value.map record).Storable) (name : String)
    (other : value.Storable) :
    (Value.map (Entries.insert record (.text name) value)).Storable := by
  have exact := Scalar.exact_text name
  refine map ?_ (Entries.nodup_keys_insert exact storable.plain.entries.2.1) ?_
  · intro entry member
    rcases Entries.mem_insert_of_exact exact member with old | rfl
    · exact (storable.entries entry old).1
    · exact ⟨name, rfl⟩
  · intro entry member
    rcases Entries.mem_insert_of_exact exact member with old | rfl
    · exact (storable.entries entry old).2
    · exact other

theorem empty : (Value.map []).Storable :=
  map (List.forall_mem_nil _) List.nodup_nil (List.forall_mem_nil _)

theorem update (storable : (Value.map record).Storable)
    (parts : ∀ entry ∈ additions, (∃ name, entry.1 = .text name) ∧ entry.2.Storable) :
    (Value.map (Entries.update record additions)).Storable := by
  induction additions generalizing record with
  | nil => exact storable
  | cons entry rest ih =>
    obtain ⟨⟨⟨name, key⟩, part⟩, parts⟩ := List.forall_mem_cons.mp parts
    have inserted := storable.insert name part
    rw [← key] at inserted
    exact ih inserted parts

theorem updateFields (storable : (Value.map record).Storable) {fields : List (String × Value)}
    (parts : ∀ field ∈ fields, field.2.Storable) :
    (Value.map (Entries.update record (Record.ofFields fields))).Storable := by
  refine storable.update fun entry member => ?_
  obtain ⟨field, present, rfl⟩ := List.mem_map.mp member
  exact ⟨⟨field.1, rfl⟩, parts field present⟩

end Value.Storable

theorem Time.isShort_milliseconds (micros : Int) :
    Number.isShort (Time.milliseconds micros) = true := by
  rw [Number.isShort_iff]
  refine Nat.lt_of_lt_of_le ?_ (Binary64.two_pow_le_ten_pow Number.maxDigits)
  unfold Time.milliseconds
  dsimp only
  cases found : ((Binary64.ofQuotient (decide (micros < 0)) micros.natAbs 1000000).mul
    (.ofInt 1000)).truncate? with
  | none => exact Nat.two_pow_pos _
  | some whole =>
    have bound := Binary64.natAbs_truncate?_lt found (by decide : 2099 ≤ 3 * Number.maxDigits)
    have positive : (max 0 whole).natAbs ≤ whole.natAbs := by omega
    exact Nat.lt_of_le_of_lt positive bound

end BuildRules
