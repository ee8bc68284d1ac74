import BuildRules.Lint.Rule
import BuildRules.Proofs.Returns
import BuildRules.Proofs.Text.Blank
import BuildRules.Proofs.Value.Entries

namespace BuildRules

/-- Where a rule has its name from: it is the second word of a text, or stands in a map and is
trimmed. -/
inductive LintRule.Named : Value → String → Prop where
  | text {text name : String} (member : name ∈ Text.words text) : Named (.text text) name
  | map {entries : Record} {name : String}
      (found : Record.get? entries "name" = some (.text name))
      (visible : Text.isBlankText name = false) : Named (.map entries) (Text.trim name)

theorem LintRule.named_of_parse {raw : Value} {rule : LintRule}
    (parsed : LintRule.parse raw = .ok rule) : Named raw rule.name := by
  unfold LintRule.parse at parsed
  split at parsed
  next text =>
    split at parsed
    next flag name shape =>
      split at parsed
      next severity known =>
        cases parsed
        exact .text (by simp [shape])
      next => cases parsed
    next => cases parsed
  next entries =>
    split at parsed
    next name found =>
      by_cases blank : Text.isBlankText name = true
      · simp [blank] at parsed
      · simp only [blank, Bool.false_eq_true, if_false] at parsed
        split at parsed
        next => cases parsed
        next =>
          cases parsed
          exact .map found (by simpa using blank)
    next => cases parsed
  next => cases parsed

theorem LintRule.stripped_of_parse {raw : Value} {rule : LintRule}
    (parsed : LintRule.parse raw = .ok rule) : Text.Stripped rule.name := by
  have named := named_of_parse parsed
  generalize rule.name = name at named
  cases named with
  | text member => exact Text.stripped_of_word member
  | map _ visible => exact Text.stripped_trim visible

theorem LintRule.name_ne_of_parse {raw : Value} {rule : LintRule}
    (parsed : LintRule.parse raw = .ok rule) : rule.name ≠ "" :=
  (stripped_of_parse parsed).nonempty

namespace LintPolicy

/-- Every rule of a policy was read from an item of its section. -/
theorem rule_of_parse {raw : Value} {policy : LintPolicy} (parsed : LintPolicy.parse raw = .ok policy)
    {rule : LintRule} (member : rule ∈ policy.rules) : ∃ item, LintRule.parse item = .ok rule := by
  unfold LintPolicy.parse at parsed
  split at parsed
  next =>
    cases parsed
    cases member
  next items =>
    obtain ⟨rules, read, built⟩ := bind_eq_ok.mp parsed
    cases built
    obtain ⟨item, -, parsedItem⟩ := exists_of_mem_mapM read member
    exact ⟨item, parsedItem⟩
  next => cases parsed

theorem mem_foldl_insert {rules : List LintRule} {table : Entries String Severity}
    {entry : String × Severity}
    (member : entry ∈ rules.foldl (fun table rule => Entries.insert table rule.name rule.severity)
      table) :
    entry ∈ table ∨ ∃ rule ∈ rules, entry = (rule.name, rule.severity) := by
  induction rules generalizing table with
  | nil => exact .inl member
  | cons rule rest ih =>
    rcases ih member with earlier | ⟨later, present, same⟩
    · rcases Entries.mem_insert_of_exact (String.exact_key rule.name) earlier with kept | new
      · exact .inl kept
      · exact .inr ⟨rule, List.mem_cons_self, new⟩
    · exact .inr ⟨later, List.mem_cons_of_mem rule present, same⟩

theorem rule_of_mem_effectiveOf {rules : List LintRule} {entry : String × Severity}
    (member : entry ∈ effectiveOf rules) :
    ∃ rule ∈ rules, entry = (rule.name, rule.severity) := by
  rcases mem_foldl_insert member with earlier | found
  · cases earlier
  · exact found

theorem mem_keys_foldl_insert {rules : List LintRule} {table : Entries String Severity}
    {name : String} (known : name ∈ table.keys ∨ ∃ rule ∈ rules, rule.name = name) :
    name ∈ Entries.keys (rules.foldl (fun table rule =>
      Entries.insert table rule.name rule.severity) table) := by
  induction rules generalizing table with
  | nil =>
    rcases known with earlier | ⟨rule, present, -⟩
    · exact earlier
    · cases present
  | cons rule rest ih =>
    apply ih
    rcases known with earlier | ⟨later, present, same⟩
    · exact .inl (Entries.mem_keys_insert_of_mem earlier)
    · rcases List.mem_cons.mp present with rfl | present
      · exact .inl (same ▸ Entries.mem_keys_insert_self (String.exact_key later.name) table)
      · exact .inr ⟨later, present, same⟩

theorem exists_mem_effectiveOf {rules : List LintRule} {rule : LintRule}
    (member : rule ∈ rules) : ∃ severity, (rule.name, severity) ∈ effectiveOf rules := by
  have known : rule.name ∈ Entries.keys (effectiveOf rules) :=
    mem_keys_foldl_insert (.inr ⟨rule, member, rfl⟩)
  obtain ⟨⟨name, severity⟩, present, same⟩ := List.mem_map.mp known
  exact ⟨severity, same ▸ present⟩

/-- Two rules for one name have one severity. -/
def Agrees (rules : List LintRule) : Prop :=
  ∀ first ∈ rules, ∀ second ∈ rules, first.name = second.name →
    first.severity = second.severity

end LintPolicy
end BuildRules
