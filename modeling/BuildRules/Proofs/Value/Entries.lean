import BuildRules.Value.Basic

namespace BuildRules

/-- Nothing but the key itself is its equal. -/
def Key.Exact {κ : Type} [Key κ] (key : κ) : Prop :=
  ∀ candidate : κ, Key.same candidate key = true ↔ candidate = key

theorem Scalar.exact_text (name : String) : Key.Exact (Scalar.text name) := by
  intro candidate
  cases candidate <;> simp [Key.same, Scalar.sameKey, Scalar.same, Scalar.place?]

theorem String.exact_key (name : String) : Key.Exact name := by
  intro candidate
  simp [Key.same]

namespace Entries

variable {κ α : Type} [Key κ] {key other : κ} {value : α}

theorem find?_cons_self (exact : Key.Exact key) (rest : Entries κ α) :
    find? ((key, value) :: rest) key = some value := by
  rw [find?, if_pos ((exact key).mpr rfl)]

theorem find?_cons_other (exact : Key.Exact key) (different : other ≠ key) (rest : Entries κ α) :
    find? ((other, value) :: rest) key = find? rest key := by
  rw [find?, if_neg (mt (exact other).mp different)]

theorem find?_insert_self (exact : Key.Exact key) (entries : Entries κ α) :
    find? (entries.insert key value) key = some value := by
  induction entries with
  | nil => exact find?_cons_self exact []
  | cons entry rest ih =>
    obtain ⟨candidate, old⟩ := entry
    rw [insert]
    split
    next same =>
      rw [find?, if_pos same]
    next apart =>
      rw [find?, if_neg apart, ih]

theorem find?_insert_other (exact : Key.Exact key) (otherExact : Key.Exact other)
    (different : other ≠ key) (entries : Entries κ α) :
    find? (entries.insert key value) other = find? entries other := by
  induction entries with
  | nil => exact find?_cons_other otherExact different.symm []
  | cons entry rest ih =>
    obtain ⟨candidate, old⟩ := entry
    rw [insert]
    split
    next same =>
      obtain rfl := (exact candidate).mp same
      rw [find?_cons_other otherExact different.symm, find?_cons_other otherExact different.symm]
    next =>
      rw [find?, find?, ih]

theorem find?_append_of_not_mem (exact : Key.Exact key) {front : Entries κ α}
    (absent : key ∉ front.keys) (rest : Entries κ α) :
    find? (front ++ rest) key = find? rest key := by
  induction front with
  | nil => rfl
  | cons entry front ih =>
    simp only [keys, List.map_cons, List.mem_cons, not_or] at absent
    rw [List.cons_append, find?_cons_other exact (Ne.symm absent.1)]
    exact ih absent.2

theorem find?_eq_none_of_not_mem (exact : Key.Exact key) {entries : Entries κ α}
    (absent : key ∉ entries.keys) : find? entries key = none := by
  have skipped := find?_append_of_not_mem exact absent []
  rwa [List.append_nil] at skipped

theorem mem_of_find? (exact : Key.Exact key) {entries : Entries κ α}
    (found : find? entries key = some value) : (key, value) ∈ entries := by
  induction entries with
  | nil => cases found
  | cons entry rest ih =>
    obtain ⟨candidate, old⟩ := entry
    rw [find?] at found
    split at found
    next same =>
      obtain rfl := (exact candidate).mp same
      cases found
      exact List.mem_cons_self
    next => exact List.mem_cons_of_mem _ (ih found)

/-- Where no key is repeated, every entry is found. -/
theorem find?_eq_some_iff (exact : Key.Exact key) {entries : Entries κ α}
    (distinct : entries.keys.Nodup) : find? entries key = some value ↔ (key, value) ∈ entries := by
  refine ⟨mem_of_find? exact, ?_⟩
  induction entries with
  | nil => simp
  | cons entry rest ih =>
    obtain ⟨fresh, later⟩ := List.nodup_cons.mp distinct
    intro member
    rcases List.mem_cons.mp member with rfl | member
    · exact find?_cons_self exact rest
    · have other : entry.1 ≠ key := fun same => fresh (same ▸ List.mem_map_of_mem member)
      exact (find?_cons_other exact other rest).trans (ih later member)

theorem find?_of_perm (exact : Key.Exact key) {entries others : Entries κ α}
    (order : entries.Perm others) (distinct : entries.keys.Nodup) :
    find? entries key = find? others key := by
  have othersDistinct : others.keys.Nodup := (order.map Prod.fst).nodup_iff.mp distinct
  ext value
  rw [find?_eq_some_iff exact distinct, find?_eq_some_iff exact othersDistinct, order.mem_iff]

/-- Of two values under one key the later one stays. -/
theorem insert_insert_self (exact : Key.Exact key) (later : α) (entries : Entries κ α) :
    insert (entries.insert key value) key later = entries.insert key later := by
  induction entries with
  | nil => exact if_pos ((exact key).mpr rfl)
  | cons entry rest ih =>
    obtain ⟨candidate, old⟩ := entry
    by_cases same : Key.same candidate key = true
    · rw [insert, if_pos same, insert, if_pos same, insert, if_pos same]
    · rw [insert, if_neg same, insert, if_neg same, ih, insert, if_neg same]

theorem update_append (entries first second : Entries κ α) :
    update entries (first ++ second) = update (update entries first) second :=
  List.foldl_append

/-- An insertion under a key that only itself is equal to brings in one entry. -/
theorem mem_insert_of_exact (exact : Key.Exact key) {entry : κ × α} {entries : Entries κ α}
    (member : entry ∈ entries.insert key value) : entry ∈ entries ∨ entry = (key, value) := by
  induction entries with
  | nil => exact .inr (List.mem_singleton.mp member)
  | cons head rest ih =>
    obtain ⟨candidate, old⟩ := head
    rw [insert] at member
    split at member
    next same =>
      obtain rfl := (exact candidate).mp same
      rcases List.mem_cons.mp member with rfl | later
      · exact .inr rfl
      · exact .inl (List.mem_cons_of_mem _ later)
    next =>
      rcases List.mem_cons.mp member with rfl | later
      · exact .inl List.mem_cons_self
      · exact (ih later).imp_left (List.mem_cons_of_mem _)

theorem mem_keys_insert_of_mem {entries : Entries κ α} (member : other ∈ entries.keys) :
    other ∈ keys (entries.insert key value) := by
  induction entries with
  | nil => cases member
  | cons head rest ih =>
    obtain ⟨candidate, old⟩ := head
    rw [insert]
    split
    · exact member
    · rcases List.mem_cons.mp member with rfl | later
      · exact List.mem_cons_self
      · exact List.mem_cons_of_mem _ (ih later)

theorem mem_keys_insert_self (exact : Key.Exact key) (entries : Entries κ α) :
    key ∈ keys (entries.insert key value) := by
  have found : find? (entries.insert key value) key = some value :=
    find?_insert_self exact entries
  exact List.mem_map.mpr ⟨_, mem_of_find? exact found, rfl⟩

theorem nodup_keys_insert (exact : Key.Exact key) {entries : Entries κ α}
    (distinct : entries.keys.Nodup) : (keys (entries.insert key value)).Nodup := by
  induction entries with
  | nil => simp [insert, keys]
  | cons head rest ih =>
    obtain ⟨candidate, old⟩ := head
    obtain ⟨fresh, later⟩ := List.nodup_cons.mp distinct
    rw [insert]
    split
    next => exact distinct
    next apart =>
      refine List.nodup_cons.mpr ⟨?_, ih later⟩
      intro member
      obtain ⟨entry, present, same⟩ := List.mem_map.mp member
      rcases mem_insert_of_exact exact present with kept | rfl
      · exact fresh (same ▸ List.mem_map_of_mem kept)
      · exact apart ((exact candidate).mpr same.symm)

theorem insert_append_of_not_mem (exact : Key.Exact key) {front : Entries κ α}
    (absent : key ∉ front.keys) (rest : Entries κ α) :
    insert (front ++ rest) key value = front ++ insert rest key value := by
  induction front with
  | nil => rfl
  | cons entry front ih =>
    simp only [keys, List.map_cons, List.mem_cons, not_or] at absent
    rw [List.cons_append, insert, if_neg (mt (exact entry.1).mp (Ne.symm absent.1)),
      ih absent.2, List.cons_append]

theorem keys_insert_of_mem (exact : Key.Exact key) {entries : Entries κ α}
    (present : key ∈ entries.keys) : keys (entries.insert key value) = entries.keys := by
  induction entries with
  | nil => cases present
  | cons entry rest ih =>
    rw [insert]
    split
    next => rfl
    next apart =>
      have later : key ∈ keys rest := by
        rcases List.mem_cons.mp present with same | later
        · exact absurd ((exact entry.1).mpr same.symm) apart
        · exact later
      exact congrArg (entry.1 :: ·) (ih later)

theorem insert_of_not_mem (exact : Key.Exact key) {entries : Entries κ α}
    (absent : key ∉ entries.keys) : entries.insert key value = entries ++ [(key, value)] := by
  have inserted : insert (entries ++ []) key value = entries ++ [(key, value)] :=
    insert_append_of_not_mem exact absent []
  rwa [List.append_nil] at inserted

omit [Key κ] in
theorem nodup_of_keys {entries : Entries κ α} (distinct : entries.keys.Nodup) : entries.Nodup :=
  (List.pairwise_map.mp distinct).imp fun apart same => apart (congrArg Prod.fst same)

/-- Tables in which every key is found alike have the same entries. -/
theorem perm_of_find? {left right : Entries κ α} (exact : ∀ key : κ, Key.Exact key)
    (leftDistinct : left.keys.Nodup) (rightDistinct : right.keys.Nodup)
    (same : ∀ key, find? left key = find? right key) : left.Perm right := by
  apply (List.perm_ext_iff_of_nodup (nodup_of_keys leftDistinct)
    (nodup_of_keys rightDistinct)).mpr
  intro entry
  obtain ⟨key, value⟩ := entry
  rw [← find?_eq_some_iff (exact key) leftDistinct, same,
    find?_eq_some_iff (exact key) rightDistinct]

theorem update_of_distinct {entries additions : Entries κ α}
    (exact : ∀ entry ∈ additions, Key.Exact entry.1) (distinct : (entries ++ additions).keys.Nodup) :
    update entries additions = entries ++ additions := by
  induction additions generalizing entries with
  | nil => exact (List.append_nil entries).symm
  | cons entry rest ih =>
    obtain ⟨first, exact⟩ := List.forall_mem_cons.mp exact
    have shape : entries ++ entry :: rest = (entries ++ [entry]) ++ rest := by simp
    have absent : entry.1 ∉ entries.keys := by
      intro member
      rw [keys, List.map_append] at distinct
      exact (List.nodup_append.mp distinct).2.2 _ member _ List.mem_cons_self rfl
    change update (entries.insert entry.1 entry.2) rest = _
    rw [shape] at distinct ⊢
    rw [insert_of_not_mem first absent]
    exact ih exact distinct

theorem ofList_of_distinct {pairs : Entries κ α} (exact : ∀ pair ∈ pairs, Key.Exact pair.1)
    (distinct : pairs.keys.Nodup) : ofList pairs = pairs :=
  update_of_distinct exact distinct

theorem find?_insert_text_of_ne {entries : Entries Scalar α} {name other : String} {value : α}
    (different : other ≠ name) : find? (entries.insert (.text name) value) (.text other) =
      find? entries (.text other) :=
  find?_insert_other (Scalar.exact_text name) (Scalar.exact_text other)
    (mt Scalar.text.inj different) entries

end Entries

namespace Record

/-- A change of one field is seen in that field only. -/
@[simp] theorem get?_insert (record : Record) (name other : String) (value : Value) :
    get? (Entries.insert record (.text name) value) other =
      if name = other then some value else get? record other := by
  split
  next same =>
    subst same
    exact Entries.find?_insert_self (Scalar.exact_text name) record
  next different => exact Entries.find?_insert_text_of_ne (Ne.symm different)

/-- A change under a key that is not the text of a field leaves the field as it was. -/
theorem get?_insert_of_ne (record : Record) {key : Scalar} {name : String} (value : Value)
    (other : key ≠ .text name) : get? (Entries.insert record key value) name =
      get? record name := by
  induction record with
  | nil => exact Entries.find?_cons_other (Scalar.exact_text name) other []
  | cons entry rest ih =>
    obtain ⟨candidate, old⟩ := entry
    rw [Entries.insert]
    split
    next same =>
      have apart : candidate ≠ .text name := by
        rintro rfl
        cases key <;> simp_all [Key.same, Scalar.sameKey, Scalar.same, Scalar.place?]
      have skipped (held : Value) : get? ((candidate, held) :: rest) name = get? rest name :=
        Entries.find?_cons_other (Scalar.exact_text name) apart rest
      rw [skipped, skipped]
    next => simp only [get?, Entries.find?] at ih ⊢; rw [ih]

/-- A field that no addition sets is what it was. -/
theorem get?_update_of_absent (record : Record) {additions : Record} {name : String}
    (absent : get? additions name = none) :
    get? (Entries.update record additions) name = get? record name := by
  induction additions generalizing record with
  | nil => rfl
  | cons entry rest ih =>
    obtain ⟨key, value⟩ := entry
    have other : key ≠ .text name := by
      rintro rfl
      rw [get?, Entries.find?_cons_self (Scalar.exact_text name)] at absent
      cases absent
    have later : get? rest name = none := by
      rwa [get?, Entries.find?_cons_other (Scalar.exact_text name) other] at absent
    exact (ih (Entries.insert record key value) later).trans (get?_insert_of_ne record value other)

/-- What the additions set is laid over what was there. -/
theorem get?_update (record additions : Record) (name : String) :
    get? (Entries.update record additions) name =
      (get? (Entries.update [] additions) name).or (get? record name) := by
  induction additions generalizing record with
  | nil => rfl
  | cons entry rest ih =>
    obtain ⟨key, value⟩ := entry
    have first (base : Record) : Entries.update base ((key, value) :: rest) =
        Entries.update (Entries.insert base key value) rest := rfl
    have alone : get? (Entries.insert record key value) name =
        (get? (Entries.insert [] key value) name).or (get? record name) := by
      by_cases same : key = .text name
      · rw [same, get?_insert, get?_insert, if_pos rfl, if_pos rfl]
        rfl
      · rw [get?_insert_of_ne _ value same, get?_insert_of_ne _ value same]
        rfl
    rw [first, first, ih, ih (Entries.insert [] key value), alone, Option.or_assoc]

@[simp] theorem get?_nil (name : String) : get? [] name = none := rfl

@[simp] theorem get?_ofFields_nil (name : String) : get? (ofFields []) name = none := rfl

@[simp] theorem get?_ofFields_cons (field name : String) (value : Value)
    (rest : List (String × Value)) :
    get? (ofFields ((field, value) :: rest)) name =
      if field = name then some value else get? (ofFields rest) name := by
  split
  next same =>
    subst same
    exact Entries.find?_cons_self (Scalar.exact_text field) _
  next different =>
    refine Entries.find?_cons_other (Scalar.exact_text name) ?_ _
    intro same
    exact different (Scalar.text.inj same)

@[simp] theorem get?_update_nil (record : Record) (name : String) :
    get? (Entries.update record (ofFields [])) name = get? record name := rfl

@[simp] theorem get?_update_cons (record : Record) (field name : String) (value : Value)
    (rest : List (String × Value)) :
    get? (Entries.update record (ofFields ((field, value) :: rest))) name =
      get? (Entries.update (Entries.insert record (.text field) value) (ofFields rest)) name :=
  rfl

end Record
end BuildRules
