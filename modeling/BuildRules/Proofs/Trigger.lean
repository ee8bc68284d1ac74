import BuildRules.Proofs.Config.Agreement
import BuildRules.Proofs.Value.Keyed
import BuildRules.Proofs.Value.Reordered
import BuildRules.Trigger
import Mathlib.Data.List.Nodup

namespace BuildRules.TriggerPolicy

open Value

theorem isEvent_iff {name : String} :
    isEvent name = true ↔ name = "push" ∨ name = "pull_request" := by
  simp [isEvent]

theorem events_of_parseEntries {table result : Entries String (List String)}
    {entries : Record} (known : ∀ row ∈ table, isEvent row.1 = true)
    (read : parseEntries table entries = .ok result) : ∀ row ∈ result, isEvent row.1 = true := by
  fun_induction parseEntries table entries with
  | case1 table =>
    cases read
    exact known
  | case2 table event rest event? items texts given ih =>
    refine ih ?_ read
    intro row member
    rcases Entries.mem_insert_of_exact (String.exact_key event) member with old | rfl
    · exact known row old
    · exact event?
  | case3 | case4 | case5 | case6 => cases read

theorem events_of_parse {raw : Value} {policy : TriggerPolicy}
    (read : TriggerPolicy.parse raw = .ok policy) :
    ∀ row ∈ policy.branches, row.1 = "push" ∨ row.1 = "pull_request" := by
  simp only [← isEvent_iff]
  unfold TriggerPolicy.parse at read
  split at read
  next =>
    cases read
    simp
  next entries =>
    cases rows : parseEntries [] entries with
    | error error =>
      rw [rows] at read
      cases read
    | ok branches =>
      rw [rows] at read
      cases read
      exact events_of_parseEntries (by simp) rows
  next => cases read

section Order

variable {left right : Value} {entries fields : Record}

def rowOf? : Scalar × Value → Option (String × List String)
  | (.text event, .list items) => if isEvent event then (asTexts? items).map (event, ·) else none
  | _ => none

theorem of_parseEntries {table : Entries String (List String)} {entries : Record}
    {error : PolicyError} (written : ∀ entry ∈ entries, entry.1.Written)
    (failed : parseEntries table entries = .error error) : error.Of .pipeline := by
  fun_induction parseEntries table entries with
  | case1 => cases failed
  | case2 _ _ _ _ _ _ _ ih => exact ih (List.forall_mem_cons.mp written).2 failed
  | case3 | case4 =>
    cases failed
    exact PolicyError.of_raised rfl nofun
  | case5 | case6 =>
    cases failed
    refine PolicyError.of_raised rfl ?_
    simpa [ConfigError.shown] using Written.scalar (List.forall_mem_cons.mp written).1

/-- Rows are added in the order of the entries. -/
theorem parseEntries_eq_ok {table result : Entries String (List String)} {entries : Record}
    (fresh : ∀ row ∈ table, Scalar.text row.1 ∉ entries.keys) (distinct : entries.keys.Nodup) :
    parseEntries table entries = .ok result ↔
      ∃ rows, List.Forall₂ (fun entry row => rowOf? entry = some row) entries rows ∧
        result = table ++ rows := by
  fun_induction parseEntries table entries with
  | case1 table => simp [eq_comm]
  | case2 table event rest known items texts given ih =>
    obtain ⟨unused, later⟩ := List.nodup_cons.mp distinct
    have absent : event ∉ table.keys := by
      intro member
      obtain ⟨row, present, rfl⟩ := List.mem_map.mp member
      exact fresh row present List.mem_cons_self
    -- no row has the event yet, so its own goes behind all the others
    have grown : Entries.insert table event texts = table ++ [(event, texts)] :=
      Entries.insert_of_absent (Entries.find?_eq_none_of_not_mem (String.exact_key event) absent)
    have stillFresh : ∀ row ∈ Entries.insert table event texts,
        Scalar.text row.1 ∉ Entries.keys rest := by
      rw [grown]
      intro row member
      rcases List.mem_append.mp member with old | new
      · exact fun taken => fresh row old (List.mem_cons_of_mem _ taken)
      · rw [List.mem_singleton.mp new]
        exact unused
    rw [ih stillFresh later, grown]
    simp [List.forall₂_cons_left_iff, rowOf?, known, given]
  | case3 table event rest known items missing =>
    simp [List.forall₂_cons_left_iff, rowOf?, known, missing]
  | case4 table event raw rest known notList =>
    have nothing : rowOf? (.text event, raw) = none := by
      cases raw with
      | list items => exact (notList items rfl).elim
      | scalar | map => rfl
    simp [List.forall₂_cons_left_iff, nothing]
  | case5 table event raw rest unknown =>
    have nothing : rowOf? (.text event, raw) = none := by cases raw <;> simp [rowOf?, unknown]
    simp [List.forall₂_cons_left_iff, nothing]
  | case6 table event raw rest notText =>
    have nothing : rowOf? (event, raw) = none := by
      cases event with
      | text name => exact (notText name rfl).elim
      | null | bool | int | float | foreign => rfl
    simp [List.forall₂_cons_left_iff, nothing]

theorem rowOf?_reordered {entry field : Scalar × Value}
    (pair : entry.1 = field.1 ∧ Reordered entry.2 field.2) : rowOf? entry = rowOf? field := by
  obtain ⟨key, value⟩ := entry
  obtain ⟨_, other⟩ := field
  obtain ⟨rfl, reordered⟩ := pair
  cases reordered.shape with
  | scalar leaf => rfl
  | list parts => cases key <;> simp [rowOf?, Reordered.asTexts?_eq parts]
  | map => cases key <;> rfl

theorem keys_of_rows {entries : Record} {rows : Entries String (List String)}
    (reads : List.Forall₂ (fun entry row => rowOf? entry = some row) entries rows) :
    entries.keys = rows.keys.map .text := by
  induction reads with
  | nil => rfl
  | @cons entry row _ _ read _ ih =>
    have key : entry.1 = .text row.1 := by
      revert read
      fun_cases rowOf? entry <;> simp +contextual [Prod.ext_iff]
    simp only [Entries.keys, List.map_cons, key] at ih ⊢
    rw [ih]

/-- A section that is read keeps its rows when its entries are reordered. -/
theorem parseEntries_reordered (reordered : Reordered (.map entries) (.map fields))
    {table : Entries String (List String)} (read : parseEntries [] entries = .ok table) :
    ∃ other, parseEntries [] fields = .ok other ∧
      ∀ event, Entries.find? table event = Entries.find? other event := by
  obtain ⟨middle, order, paired⟩ := reordered.entries_perm
  obtain ⟨-, distinct, -⟩ := reordered.leftPlain.entries
  obtain ⟨-, otherDistinct, -⟩ := reordered.rightPlain.entries
  obtain ⟨rows, reads, rfl⟩ := (parseEntries_eq_ok (by simp) distinct).mp read
  obtain ⟨arranged, middleReads, permuted⟩ := List.perm_comp_forall₂ order.symm reads
  have otherReads : List.Forall₂ (fun entry row => rowOf? entry = some row) fields arranged :=
    forall₂_through paired.flip middleReads fun field _ entry pair row read =>
      (rowOf?_reordered pair).symm.trans read
  refine ⟨arranged, (parseEntries_eq_ok (by simp) otherDistinct).mpr ⟨arranged, otherReads, rfl⟩, ?_⟩
  have rowsDistinct : table.keys.Nodup := by
    rw [keys_of_rows reads] at distinct
    exact List.Nodup.of_map _ distinct
  exact fun event => Entries.find?_of_perm (String.exact_key event) permuted.symm rowsDistinct

theorem of_parse {raw : Value} {error : PolicyError} (written : raw.Written)
    (failed : TriggerPolicy.parse raw = .error error) : error.Of .pipeline := by
  unfold TriggerPolicy.parse at failed
  split at failed
  next => cases failed
  next entries =>
    cases read : parseEntries [] entries with
    | ok table =>
      rw [read] at failed
      cases failed
    | error fault =>
      rw [read] at failed
      cases failed
      exact of_parseEntries written.keys read
  next =>
    cases failed
    exact PolicyError.of_raised rfl nofun

theorem exists_of_parse (reordered : Reordered left right) {policy : TriggerPolicy}
    (read : TriggerPolicy.parse left = .ok policy) :
    ∃ other, TriggerPolicy.parse right = .ok other ∧
      ∀ event branch, policy.fires event branch = other.fires event branch := by
  cases reordered.shape with
  | scalar leaf => exact ⟨policy, read, fun _ _ => rfl⟩
  | list => cases read
  | @map entries fields parts =>
    rw [TriggerPolicy.parse] at read ⊢
    cases rows : parseEntries [] entries with
    | error fault =>
      rw [rows] at read
      cases read
    | ok table =>
      rw [rows] at read
      cases read
      obtain ⟨other, reads, same⟩ := parseEntries_reordered parts rows
      exact ⟨⟨other⟩, by rw [reads]; rfl, fun event branch => by simp only [fires, same]⟩

/-- The same pushes and pull requests start the pipeline. -/
theorem parse_reordered (reordered : Reordered left right) :
    Agree (fun policy other => ∀ event branch, policy.fires event branch = other.fires event branch)
      (TriggerPolicy.parse left) (TriggerPolicy.parse right) := by
  refine .of_ok (fun _ => of_parse reordered.written) (fun _ => of_parse reordered.rightWritten)
    ?_ ?_
  · exact fun _ => exists_of_parse reordered
  · intro other read
    obtain ⟨policy, reads, -⟩ := exists_of_parse reordered.symm read
    exact ⟨policy, reads⟩

end Order
end BuildRules.TriggerPolicy
