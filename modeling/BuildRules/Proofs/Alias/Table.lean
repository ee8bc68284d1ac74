import BuildRules.Alias.Expansion

namespace BuildRules.AliasTable

variable {table : AliasTable} {name : String} {token : Token} {entry : Alias}

theorem name_of_find? (found : table.find? name = some entry) : entry.name = name :=
  beq_iff_eq.mp (List.find?_some (p := fun candidate : Alias => candidate.name == name) found)

theorem has_iff_find? : table.has name = true ↔ ∃ entry, table.find? name = some entry := by
  rw [has, names, List.contains_iff_mem, List.mem_map, find?]
  constructor
  · rintro ⟨entry, member, same⟩
    have found : (table.aliases.find? fun entry => entry.name == name).isSome :=
      List.find?_isSome.mpr ⟨entry, member, beq_iff_eq.mpr same⟩
    exact Option.isSome_iff_exists.mp found
  · rintro ⟨entry, found⟩
    exact ⟨entry, List.mem_of_find?_eq_some found, name_of_find? found⟩

theorem has_eq_false_iff : table.has name = false ↔ table.find? name = none := by
  rw [← Bool.not_eq_true, has_iff_find?, Option.eq_none_iff_forall_not_mem]
  simp

theorem meaning_alias (meaning : table.meaning token = .alias_ entry) :
    table.find? entry.name = some entry ∧
      (token = .word entry.name ∨ token = .reference entry.name) := by
  cases token with
  | literal text => simp [AliasTable.meaning] at meaning
  | word text =>
    cases found : table.find? text with
    | none => simp [AliasTable.meaning, found] at meaning
    | some other =>
      simp only [AliasTable.meaning, found, Meaning.alias_.injEq] at meaning
      subst other
      rw [name_of_find? found]
      exact ⟨found, .inl rfl⟩
  | reference text =>
    cases found : table.find? text with
    | none => simp [AliasTable.meaning, found] at meaning
    | some other =>
      simp only [AliasTable.meaning, found, Meaning.alias_.injEq] at meaning
      subst other
      rw [name_of_find? found]
      exact ⟨found, .inr rfl⟩

theorem meaning_undeclared {missing : String}
    (meaning : table.meaning token = .undeclared missing) :
    token = .reference missing ∧ table.find? missing = none := by
  cases token with
  | literal text => simp [AliasTable.meaning] at meaning
  | word text =>
    cases found : table.find? text <;> simp [AliasTable.meaning, found] at meaning
  | reference text =>
    cases found : table.find? text with
    | none =>
      simp only [AliasTable.meaning, found, Meaning.undeclared.injEq] at meaning
      subst missing
      exact ⟨rfl, found⟩
    | some other => simp [AliasTable.meaning, found] at meaning

end BuildRules.AliasTable
