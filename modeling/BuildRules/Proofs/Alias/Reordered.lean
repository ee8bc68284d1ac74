import BuildRules.Proofs.Alias.Section
import BuildRules.Proofs.Config.Agreement
import BuildRules.Proofs.Value.Reordered
import Mathlib.Data.List.Nodup

namespace BuildRules

open Value

variable {left right : Value} {entries fields : Record}

/-- Only a map of one leaf is a token. -/
theorem Alias.token_of_no_leaf {entries : Record}
    (other : ∀ key leaf, entries ≠ [(key, .scalar leaf)]) (name : String) :
    Alias.token name (.map entries) = .error (.raised (.aliasToken name (.map entries))) := by
  unfold Alias.token
  split
  next impossible => cases impossible
  next single => cases single; exact absurd rfl (other _ _)
  next single => cases single; exact absurd rfl (other _ _)
  next => rfl

theorem Alias.of_aliasToken {raw : Value} (name : String) (written : raw.Written) :
    (PolicyError.raised (.aliasToken name raw)).Of .aliases :=
  PolicyError.of_raised rfl (by simpa [ConfigError.shown] using written)

theorem Alias.token_reordered (name : String) (reordered : Reordered left right) :
    Agree Eq (Alias.token name left) (Alias.token name right) := by
  have alike := (Alias.of_aliasToken name reordered.written).alike
    (Alias.of_aliasToken name reordered.rightWritten)
  cases reordered.shape with
  | scalar leaf => exact .refl _
  | list => exact .error alike
  | @map entries fields parts =>
    by_cases single : ∃ key leaf, entries = [(key, .scalar leaf)]
    · obtain ⟨key, leaf, rfl⟩ := single
      rw [parts.eq_of_single]
      exact .refl _
    · have apart : ∀ key leaf, fields ≠ [(key, .scalar leaf)] := by
        rintro key leaf rfl
        exact single ⟨key, leaf, parts.symm.eq_of_single⟩
      rw [Alias.token_of_no_leaf (fun key leaf same => single ⟨key, leaf, same⟩),
        Alias.token_of_no_leaf apart]
      exact .error alike

theorem Alias.parse_reordered (name : Value) (reordered : Reordered left right) :
    Agree Eq (Alias.parse name left) (Alias.parse name right) := by
  unfold Alias.parse
  split
  next name =>
    split
    next => exact .error (.refl _)
    next =>
      cases reordered.shape with
      | scalar leaf => exact .refl _
      | list parts =>
        refine (Agree.mapM_eq parts fun _ _ => Alias.token_reordered name).bind ?_
        rintro tokens _ rfl
        exact .refl _
      | map => exact .error (.refl _)
  next => exact .error (.refl _)

theorem Alias.Declares.reordered {entry field : Scalar × Value} {declared : Alias}
    (pair : entry.1 = field.1 ∧ Reordered entry.2 field.2) (declares : Alias.Declares entry declared) :
    Alias.Declares field declared := by
  have agree := Alias.parse_reordered (.scalar field.1) pair.2
  rw [Alias.Declares, pair.1] at declares
  rw [Alias.Declares]
  rw [declares] at agree
  generalize Alias.parse (.scalar field.1) field.2 = parsed at agree ⊢
  cases agree with
  | ok same => rw [same]

theorem Alias.of_token {name : String} {raw : Value} {error : PolicyError} (written : raw.Written)
    (failed : Alias.token name raw = .error error) : error.Of .aliases := by
  unfold Alias.token at failed
  split at failed
  next => cases failed
  next => cases failed
  next =>
    split at failed
    next =>
      cases failed
      exact Alias.of_aliasToken name written
    next => cases failed
  next =>
    cases failed
    exact Alias.of_aliasToken name written

theorem Alias.of_tokens {name : String} {items : List Value} {error : PolicyError}
    (written : ∀ item ∈ items, item.Written)
    (failed : (do .ok ⟨name, ← items.mapM (Alias.token name)⟩ : Except PolicyError Alias) =
      .error error) : error.Of .aliases := by
  rcases bind_eq_error.mp failed with tokens | ⟨_, -, impossible⟩
  · obtain ⟨item, member, token⟩ := exists_of_mapM_eq_error tokens
    exact Alias.of_token (written item member) token
  · cases impossible

theorem Alias.of_parse {name definition : Value} {error : PolicyError}
    (written : definition.Written) (failed : Alias.parse name definition = .error error) :
    error.Of .aliases := by
  unfold Alias.parse at failed
  split at failed
  next =>
    split at failed
    next =>
      cases failed
      exact PolicyError.of_raised rfl nofun
    next =>
      split at failed
      next text =>
        exact Alias.of_tokens (Written.ofTexts (Text.words text)).items failed
      next => exact Alias.of_tokens written.items failed
      next =>
        cases failed
        exact PolicyError.of_raised rfl nofun
  next =>
    cases failed
    exact PolicyError.of_raised rfl nofun

namespace AliasTable

theorem of_add {table : AliasTable} {entry : Alias} {allowed : Bool} {error : PolicyError}
    (failed : table.add entry allowed = .error error) : error.Of .aliases := by
  unfold add at failed
  split at failed
  next =>
    cases failed
    exact PolicyError.of_raised rfl (List.forall_mem_nil _)
  next =>
    split at failed
    next =>
      cases failed
      exact PolicyError.of_raised rfl (List.forall_mem_nil _)
    next => cases failed

theorem of_declare {table : AliasTable} {entries : Record} {error : PolicyError}
    (written : ∀ entry ∈ entries, entry.2.Written)
    (failed : table.declare entries = .error error) : error.Of .aliases := by
  induction entries generalizing table with
  | nil => cases failed
  | cons entry rest ih =>
    obtain ⟨name, definition⟩ := entry
    obtain ⟨first, later⟩ := List.forall_mem_cons.mp written
    rw [declare] at failed
    rcases bind_eq_error.mp failed with unread | ⟨read, -, failed⟩
    · exact Alias.of_parse first unread
    · rcases bind_eq_error.mp failed with refused | ⟨grown, -, failed⟩
      · exact of_add refused
      · exact ih later failed

theorem of_ofSection {section_ : Value} {builtin : Alias} {error : PolicyError}
    (written : section_.Written) (failed : ofSection section_ [builtin] = .error error) :
    error.Of .aliases := by
  obtain ⟨installed, built, -⟩ := install_single builtin
  unfold ofSection at failed
  rw [built] at failed
  split at failed
  next => exact of_declare (by simp) failed
  next => exact of_declare written.entries failed
  next =>
    cases failed
    exact PolicyError.of_raised rfl nofun

theorem find?_eq_some_iff {table : AliasTable} {name : String} {entry : Alias} :
    table.find? name = some entry ↔ entry ∈ table.aliases ∧ entry.name = name := by
  refine ⟨fun found => ⟨List.mem_of_find?_eq_some found, name_of_find? found⟩, ?_⟩
  rintro ⟨member, rfl⟩
  have present : table.has entry.name = true := by
    rw [has, names, List.contains_iff_mem]
    exact List.mem_map_of_mem member
  obtain ⟨other, found⟩ := has_iff_find?.mp present
  rw [found, List.inj_on_of_nodup_map table.distinct (List.mem_of_find?_eq_some found) member
    (name_of_find? found)]

theorem find?_of_perm {table other : AliasTable} (order : table.aliases.Perm other.aliases)
    (name : String) : table.find? name = other.find? name := by
  ext entry
  rw [find?_eq_some_iff, find?_eq_some_iff, order.mem_iff]

theorem exists_of_ofSection {builtin : Alias} (named : builtin.name = Alias.vendoredName)
    (reordered : Reordered left right) {table : AliasTable}
    (read : ofSection left [builtin] = .ok table) :
    ∃ other, ofSection right [builtin] = .ok other ∧
      ∀ name, table.find? name = other.find? name := by
  cases reordered.shape with
  | scalar leaf => exact ⟨table, read, fun _ => rfl⟩
  | list =>
    obtain ⟨_, _, impossible, -⟩ := (ofSection_eq_ok named).mp read
    cases impossible
  | @map entries fields parts =>
    obtain ⟨entries, declared, present, parses, distinct, reserved, aliases⟩ :=
      (ofSection_eq_ok named).mp read
    cases present
    obtain ⟨middle, order, paired⟩ := parts.entries_perm
    obtain ⟨arranged, middleParses, permuted⟩ := List.perm_comp_forall₂ order.symm parses
    have otherParses : List.Forall₂ Alias.Declares fields arranged :=
      forall₂_through paired.flip middleParses fun field _ entry pair alias_ parsed =>
        Alias.Declares.reordered pair parsed
    have permutedAll : (builtin :: arranged).Perm (builtin :: declared) := permuted.cons builtin
    have arrangedDistinct : ((builtin :: arranged).map Alias.name).Nodup :=
      (permutedAll.map Alias.name).nodup_iff.mpr distinct
    refine ⟨⟨[Alias.vendoredName], builtin :: arranged, arrangedDistinct⟩, ?_, ?_⟩
    · exact (ofSection_eq_ok named).mpr
        ⟨fields, arranged, rfl, otherParses, arrangedDistinct, rfl, rfl⟩
    · exact find?_of_perm (aliases ▸ permutedAll.symm)

theorem ofSection_reordered {builtin : Alias} (named : builtin.name = Alias.vendoredName)
    (reordered : Reordered left right) :
    Agree (fun table other => ∀ name, table.find? name = other.find? name)
      (ofSection left [builtin]) (ofSection right [builtin]) := by
  refine .of_ok (fun _ => of_ofSection reordered.written)
    (fun _ => of_ofSection reordered.rightWritten) ?_ ?_
  · exact fun _ => exists_of_ofSection named reordered
  · intro other read
    obtain ⟨table, reads, -⟩ := exists_of_ofSection named reordered.symm read
    exact ⟨table, reads⟩

end AliasTable

end BuildRules
