import BuildRules.Proofs.First
import BuildRules.Proofs.Lint.Flags
import Mathlib.Data.List.Induction

/-! The severities in force. Each name has a place for its first rule and a severity for its last
one, so rules for other names may stand anywhere between; and there is one flag for each name. -/
namespace BuildRules.LintPolicy

variable {rules others : List LintRule} {name : String}

def lastRule? (rules : List LintRule) (name : String) : Option LintRule :=
  rules.reverse.find? fun rule => rule.name == name

theorem lastRule?_append (rules : List LintRule) (rule : LintRule) (name : String) :
    lastRule? (rules ++ [rule]) name =
      if rule.name = name then some rule else lastRule? rules name := by
  rw [lastRule?, List.reverse_append, List.reverse_singleton, List.singleton_append,
    List.find?_cons]
  by_cases same : rule.name = name
  · simp [same]
  · have apart : (rule.name == name) = false := by simpa using same
    rw [apart, if_neg same, lastRule?]

theorem of_lastRule? {rule : LintRule} (found : lastRule? rules name = some rule) :
    rule ∈ rules ∧ rule.name = name :=
  ⟨List.mem_reverse.mp (List.mem_of_find?_eq_some found), by simpa using List.find?_some found⟩

theorem exists_lastRule? {rule : LintRule} (member : rule ∈ rules) :
    ∃ last, lastRule? rules rule.name = some last := by
  apply Option.isSome_iff_exists.mp
  exact List.find?_isSome.mpr ⟨rule, List.mem_reverse.mpr member, beq_self_eq_true rule.name⟩

theorem effectiveOf_append (rules : List LintRule) (rule : LintRule) :
    effectiveOf (rules ++ [rule]) =
      Entries.insert (effectiveOf rules) rule.name rule.severity :=
  List.foldl_append

theorem nodup_keys_effectiveOf (rules : List LintRule) : (effectiveOf rules).keys.Nodup := by
  induction rules using List.reverseRecOn with
  | nil => exact List.nodup_nil
  | append_singleton rules rule ih =>
    rw [effectiveOf_append]
    exact Entries.nodup_keys_insert (String.exact_key rule.name) ih

theorem keys_effectiveOf (rules : List LintRule) :
    (effectiveOf rules).keys = (rules.map LintRule.name).eraseDups := by
  induction rules using List.reverseRecOn with
  | nil => rfl
  | append_singleton rules rule ih =>
    rw [effectiveOf_append, List.map_append, List.map_singleton, eraseDups_append_singleton]
    have known : rule.name ∈ (effectiveOf rules).keys ↔ rule.name ∈ rules.map LintRule.name := by
      rw [ih, List.mem_eraseDups]
    by_cases earlier : rule.name ∈ rules.map LintRule.name
    · rw [if_pos earlier, Entries.keys_insert_of_mem (String.exact_key rule.name)
        (known.mpr earlier), ih]
    · rw [if_neg earlier, Entries.insert_of_not_mem (String.exact_key rule.name)
        (mt known.mp earlier), ← ih, Entries.keys, List.map_append]
      rfl

theorem find?_effectiveOf (rules : List LintRule) (name : String) :
    Entries.find? (effectiveOf rules) name = (lastRule? rules name).map LintRule.severity := by
  induction rules using List.reverseRecOn with
  | nil => rfl
  | append_singleton rules rule ih =>
    rw [effectiveOf_append, lastRule?_append]
    by_cases same : rule.name = name
    · subst same
      rw [if_pos rfl, Entries.find?_insert_self (String.exact_key rule.name)]
      rfl
    · rw [if_neg same, ← ih]
      exact Entries.find?_insert_other (String.exact_key rule.name) (String.exact_key name)
        (Ne.symm same) _

/-- Two lists with the same last severities make one table, up to the order of its names. -/
theorem perm_effectiveOf (same : ∀ name, (lastRule? rules name).map LintRule.severity =
    (lastRule? others name).map LintRule.severity) :
    (effectiveOf rules).Perm (effectiveOf others) := by
  apply Entries.perm_of_find? String.exact_key (nodup_keys_effectiveOf rules)
    (nodup_keys_effectiveOf others)
  intro name
  rw [find?_effectiveOf, find?_effectiveOf, same]

/-- Severities of the rules for a name, in order. -/
def severitiesOf (rules : List LintRule) (name : String) : List Severity :=
  (rules.filter fun rule => rule.name == name).map LintRule.severity

theorem severity_lastRule? (rules : List LintRule) (name : String) :
    (lastRule? rules name).map LintRule.severity = (severitiesOf rules name).getLast? := by
  rw [severitiesOf, List.getLast?_map, List.getLast?_eq_head?_reverse, ← List.filter_reverse,
    List.head?_filter, lastRule?]

/-- Rules for names of their own are in force as they stand. -/
theorem effectiveOf_of_distinct (distinct : (rules.map LintRule.name).Nodup) :
    effectiveOf rules = rules.map fun rule => (rule.name, rule.severity) := by
  induction rules using List.reverseRecOn with
  | nil => rfl
  | append_singleton rules rule ih =>
    rw [List.map_append] at distinct
    obtain ⟨earlier, -, apart⟩ := List.nodup_append.mp distinct
    have fresh : rule.name ∉ (effectiveOf rules).keys := by
      rw [keys_effectiveOf, List.mem_eraseDups]
      intro known
      exact apart _ known _ (List.mem_singleton_self _) rfl
    rw [effectiveOf_append, Entries.insert_of_not_mem (String.exact_key rule.name) fresh,
      ih earlier, List.map_append]
    rfl

theorem mem_effectiveOf_iff {severity : Severity} : (name, severity) ∈ effectiveOf rules ↔
    ∃ rule, First (fun rule => rule.name = name) rules.reverse rule ∧ rule.severity = severity := by
  rw [← Entries.find?_eq_some_iff (String.exact_key name) (nodup_keys_effectiveOf rules),
    find?_effectiveOf, Option.map_eq_some_iff]
  apply exists_congr
  intro rule
  rw [lastRule?, find?_eq_some_iff_first, first_congr fun _ _ => beq_iff_eq]

theorem ofFlag?_flag (severity : Severity) : Severity.ofFlag? severity.flag = some severity := by
  cases severity <;> rfl

theorem flag_append_inj {severity other : Severity} {name otherName : String}
    (same : severity.flag ++ name = other.flag ++ otherName) :
    severity = other ∧ name = otherName := by
  have two (level : Severity) : level.flag.toList.length = 2 := by
    cases level <;> rfl
  have lengths : severity.flag.toList.length = other.flag.toList.length := by rw [two, two]
  have chars := congrArg String.toList same
  rw [String.toList_append, String.toList_append] at chars
  obtain ⟨flags, names⟩ := List.append_inj chars lengths
  have known := ofFlag?_flag severity
  rw [String.toList_inj.mp flags, ofFlag?_flag] at known
  exact ⟨(Option.some.inj known).symm, String.toList_inj.mp names⟩

theorem mem_names_iff {policy : LintPolicy} {severity : Severity} :
    name ∈ policy.names severity ↔ (name, severity) ∈ policy.effective := by
  simp [names]

theorem names_perm (policy : LintPolicy) :
    (policy.names .warn ++ policy.names .deny).Perm policy.effective.keys := by
  have opposite (entry : String × Severity) :
      (entry.2 == .deny) = !(entry.2 == Severity.warn) := by
    cases entry.2 <;> rfl
  simp only [names, opposite, ← List.map_append]
  exact (List.filter_append_perm _ policy.effective).map Prod.fst

theorem names_sublist (policy : LintPolicy) (severity : Severity) :
    (policy.names severity).Sublist policy.effective.keys :=
  List.filter_sublist.map Prod.fst

theorem nodup_flags (policy : LintPolicy) : policy.flags.Nodup := by
  rw [flags_eq]
  apply List.pairwise_map.mpr
  apply (List.pairwise_map.mp (nodup_keys_effectiveOf policy.rules)).imp
  intro entry other apart same
  exact apart (flag_append_inj same).2

/-- A table in which each name stands once, where its first rule puts it, with the severity of its
last rule. -/
structure Tabulates (rules : List LintRule) (table : Entries String Severity) : Prop where
  order : table.keys = (rules.map LintRule.name).eraseDups
  distinct : table.keys.Nodup
  last : ∀ name severity, (name, severity) ∈ table ↔
    ∃ rule, First (fun rule => rule.name = name) rules.reverse rule ∧ rule.severity = severity

/-- One flag for each name, in order. The names warned of and those denied share them out, each
part in that order. -/
structure Flagged (policy : LintPolicy) (names : List String) : Prop where
  flags : List.Forall₂ (fun name flag => ∃ severity, (name, severity) ∈ policy.effective ∧
    flag = severity.flag ++ name) names policy.flags
  distinct : policy.flags.Nodup
  severity : ∀ name severity, name ∈ policy.names severity ↔ (name, severity) ∈ policy.effective
  shared : (policy.names .warn ++ policy.names .deny).Perm names
  ordered : ∀ severity, (policy.names severity).Sublist names

theorem tabulates_effectiveOf (rules : List LintRule) : Tabulates rules (effectiveOf rules) where
  order := keys_effectiveOf rules
  distinct := nodup_keys_effectiveOf rules
  last _ _ := mem_effectiveOf_iff

theorem flagged (policy : LintPolicy) : policy.Flagged policy.effective.keys where
  flags := by
    rw [flags_eq, Entries.keys, List.forall₂_map_left_iff, List.forall₂_map_right_iff]
    apply List.forall₂_same.mpr
    intro entry member
    exact ⟨entry.2, member, rfl⟩
  distinct := nodup_flags policy
  severity _ _ := mem_names_iff
  shared := names_perm policy
  ordered := names_sublist policy

/-- Of the rules for a name the first gives its place and the last its severity. The table made of
its own entries is the same one again; rules that agree on the severities of each name, in order,
make one mapping; and every name has one flag. -/
theorem last_rule_decides (policy : LintPolicy) :
    Tabulates policy.rules policy.effective ∧
    (∀ again : List LintRule,
      again.map (fun rule => (rule.name, rule.severity)) = policy.effective →
        effectiveOf again = policy.effective) ∧
    (∀ other : LintPolicy,
      (∀ name, severitiesOf policy.rules name = severitiesOf other.rules name) →
        policy.effective.Perm other.effective ∧
        ∀ name, Entries.find? policy.effective name = Entries.find? other.effective name) ∧
    policy.Flagged (policy.rules.map LintRule.name).eraseDups := by
  refine ⟨tabulates_effectiveOf policy.rules, ?_, ?_, ?_⟩
  · intro again entries
    have names : again.map LintRule.name = policy.effective.keys := by
      rw [← entries, Entries.keys, List.map_map]
      rfl
    have distinct : (again.map LintRule.name).Nodup := by
      rw [names]
      exact nodup_keys_effectiveOf policy.rules
    rw [effectiveOf_of_distinct distinct, entries]
  · intro other same
    have last (name : String) : (lastRule? policy.rules name).map LintRule.severity =
        (lastRule? other.rules name).map LintRule.severity := by
      rw [severity_lastRule?, severity_lastRule?, same]
    have entries := perm_effectiveOf last
    refine ⟨entries, ?_⟩
    intro name
    exact Entries.find?_of_perm (String.exact_key name) entries
      (nodup_keys_effectiveOf policy.rules)
  · rw [← keys_effectiveOf]
    exact flagged policy

/-- The place of the first rule, the severity of the last. -/
example : effective ⟨[⟨"a", .warn, false⟩, ⟨"b", .deny, false⟩, ⟨"a", .deny, true⟩]⟩ =
    [("a", .deny), ("b", .deny)] := by decide

end BuildRules.LintPolicy
