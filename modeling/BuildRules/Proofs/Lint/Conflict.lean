import BuildRules.Proofs.Lint.LastRule

/-! Conflicts of lint rules are the changes of severity that no override announces. Where there is
none, nor an override, the rules for a name agree, and then their order is of no account. -/
namespace BuildRules.LintPolicy

variable {rules others : List LintRule} {name : String} {severity : Severity}

/-- The rule at a place, after the nearest one before it for its name, if that has the other
severity and no override says so. -/
def silentChange? (rules : List LintRule) (place : Nat) : Option (LintRule × LintRule) := do
  let rule ← rules[place]?
  let before ← lastRule? (rules.take place) rule.name
  if before.severity ≠ rule.severity ∧ rule.override = false then some (before, rule) else none

def Conflict.ofChange (change : LintRule × LintRule) : Conflict :=
  ⟨change.2.name, change.1.severity, change.2.severity⟩

theorem silentChange?_append (rule : LintRule) {place : Nat} (inside : place < rules.length) :
    silentChange? (rules ++ [rule]) place = silentChange? rules place := by
  rw [silentChange?, silentChange?, List.getElem?_append_left inside,
    List.take_append_of_le_length inside.le]

theorem silentChange?_last (rules : List LintRule) (rule : LintRule) :
    silentChange? (rules ++ [rule]) rules.length =
      (lastRule? rules rule.name).bind fun before =>
        if before.severity ≠ rule.severity ∧ rule.override = false then some (before, rule)
        else none := by
  rw [silentChange?, List.take_left, List.getElem?_concat_length]
  rfl

theorem conflictsFrom_append (seen : Entries String Severity) (front back : List LintRule) :
    conflictsFrom seen (front ++ back) = conflictsFrom seen front ++
      conflictsFrom (front.foldl (fun table rule =>
        Entries.insert table rule.name rule.severity) seen) back := by
  induction front generalizing seen with
  | nil => rfl
  | cons rule front ih =>
    rw [List.cons_append, conflictsFrom, conflictsFrom, ih, List.foldl_cons]
    split
    · split
      · rfl
      · rfl
    · rfl

theorem conflictsOf_append (rules : List LintRule) (rule : LintRule) :
    conflictsOf (rules ++ [rule]) = conflictsOf rules ++
      ((silentChange? (rules ++ [rule]) rules.length).map Conflict.ofChange).toList := by
  have last : conflictsOf (rules ++ [rule]) =
      conflictsOf rules ++ conflictsFrom (effectiveOf rules) [rule] :=
    conflictsFrom_append [] rules [rule]
  rw [last, silentChange?_last, conflictsFrom, find?_effectiveOf]
  cases lastRule? rules rule.name with
  | none => rfl
  | some before =>
    by_cases changed : before.severity ≠ rule.severity ∧ rule.override = false
    · simp only [Option.map_some, Option.bind_some, if_pos changed]
      rfl
    · simp only [Option.map_some, Option.bind_some, if_neg changed]
      rfl

/-- Without conflicts and overrides no rule changes the severity that its name had, so the rules
for a name agree. -/
theorem agrees_of_conflictsOf (none : conflictsOf rules = [])
    (plain : ∀ rule ∈ rules, rule.override = false) : Agrees rules := by
  induction rules using List.reverseRecOn with
  | nil =>
    intro first member
    cases member
  | append_singleton rules rule ih =>
    rw [conflictsOf_append, List.append_eq_nil_iff] at none
    obtain ⟨earlier, unchanged⟩ := none
    obtain ⟨before, last⟩ := List.forall_mem_append.mp plain
    have agrees := ih earlier before
    have same : ∀ other ∈ rules, other.name = rule.name → other.severity = rule.severity := by
      intro other member named
      obtain ⟨nearest, found⟩ := exists_lastRule? member
      obtain ⟨known, spelled⟩ := of_lastRule? found
      rw [agrees other member nearest known spelled.symm]
      rw [named] at found
      simpa [silentChange?_last, found, last rule] using unchanged
    intro first firstMember second secondMember named
    rcases List.mem_append.mp firstMember with firstEarlier | firstLast
    · rcases List.mem_append.mp secondMember with secondEarlier | secondLast
      · exact agrees first firstEarlier second secondEarlier named
      · obtain rfl := List.mem_singleton.mp secondLast
        exact same first firstEarlier named
    · obtain rfl := List.mem_singleton.mp firstLast
      rcases List.mem_append.mp secondMember with secondEarlier | secondLast
      · exact (same second secondEarlier named.symm).symm
      · rw [List.mem_singleton.mp secondLast]

/-- There is one conflict for each place where a rule silently changes a severity, in order. -/
theorem conflictsOf_eq (rules : List LintRule) :
    conflictsOf rules = ((List.range rules.length).filterMap (silentChange? rules)).map
      Conflict.ofChange := by
  induction rules using List.reverseRecOn with
  | nil => rfl
  | append_singleton rules rule ih =>
    have kept : (List.range rules.length).filterMap (silentChange? (rules ++ [rule])) =
        (List.range rules.length).filterMap (silentChange? rules) := by
      apply List.filterMap_congr
      intro place inside
      exact silentChange?_append rule (List.mem_range.mp inside)
    rw [conflictsOf_append, ih, List.length_append, List.length_singleton, List.range_succ,
      List.filterMap_append, kept, List.map_append]
    cases change : silentChange? (rules ++ [rule]) rules.length with
    | none => rw [List.filterMap_cons_none change]; rfl
    | some change => rw [List.filterMap_cons_some change]; rfl

/-- Where the rules for each name agree, none of them changes a severity. -/
theorem conflictsOf_eq_nil (agrees : Agrees rules) : conflictsOf rules = [] := by
  rw [conflictsOf_eq, List.map_eq_nil_iff, List.filterMap_eq_nil_iff]
  intro place _
  by_contra changes
  obtain ⟨change, found⟩ := Option.ne_none_iff_exists'.mp changes
  obtain ⟨rule, here, found⟩ := Option.bind_eq_some_iff.mp found
  obtain ⟨before, earlier, found⟩ := Option.bind_eq_some_iff.mp found
  split at found
  next silent =>
    obtain ⟨known, named⟩ := of_lastRule? earlier
    exact silent.1 (agrees before (List.mem_of_mem_take known) rule (List.mem_of_getElem? here)
      named)
  next => cases found

theorem Agrees.perm (agrees : Agrees rules) (order : rules.Perm others) : Agrees others := by
  intro first firstMember second secondMember
  exact agrees first (order.mem_iff.mpr firstMember) second (order.mem_iff.mpr secondMember)

/-- Any rule for a name tells its severity then. -/
theorem Agrees.mem_effectiveOf_iff (agrees : Agrees rules) : (name, severity) ∈ effectiveOf rules ↔
    ∃ rule ∈ rules, rule.name = name ∧ rule.severity = severity := by
  constructor
  · intro member
    obtain ⟨rule, declared, same⟩ := rule_of_mem_effectiveOf member
    obtain ⟨rfl, rfl⟩ := Prod.mk.inj same
    exact ⟨rule, declared, rfl, rfl⟩
  · rintro ⟨rule, declared, rfl, rfl⟩
    obtain ⟨severity, member⟩ := exists_mem_effectiveOf declared
    obtain ⟨other, known, same⟩ := rule_of_mem_effectiveOf member
    obtain ⟨named, level⟩ := Prod.mk.inj same
    rwa [agrees rule declared other known named, ← level]

theorem Agrees.perm_effectiveOf (agrees : Agrees rules) (order : rules.Perm others) :
    (effectiveOf rules).Perm (effectiveOf others) := by
  apply (List.perm_ext_iff_of_nodup (Entries.nodup_of_keys (nodup_keys_effectiveOf rules))
    (Entries.nodup_of_keys (nodup_keys_effectiveOf others))).mpr
  intro entry
  obtain ⟨name, severity⟩ := entry
  rw [agrees.mem_effectiveOf_iff, (agrees.perm order).mem_effectiveOf_iff]
  simp only [order.mem_iff]

/-- One message for each rule that changes the severity of its name silently, in order, which
names both severities. Without any, and without an override, every order of the rules puts the
same severities in force and has no message either. -/
theorem conflicts_silent_changes (rules : List LintRule) :
    (conflictsOf rules).map Conflict.message =
      ((List.range rules.length).filterMap (silentChange? rules)).map (fun change =>
        "lint '" ++ change.2.name ++ "' redefinido de " ++ change.1.severity.name ++ " para " ++
          change.2.severity.name ++ " sem override explícito") ∧
    (conflictsOf rules = [] → (∀ rule ∈ rules, rule.override = false) →
      ∀ others, rules.Perm others → conflictsOf others = [] ∧
        (effectiveOf rules).Perm (effectiveOf others) ∧
        ∀ name, Entries.find? (effectiveOf rules) name =
          Entries.find? (effectiveOf others) name) := by
  refine ⟨?_, ?_⟩
  · rw [conflictsOf_eq, List.map_map]
    rfl
  · intro none plain others order
    have agrees := agrees_of_conflictsOf none plain
    have entries := agrees.perm_effectiveOf order
    refine ⟨conflictsOf_eq_nil (agrees.perm order), entries, ?_⟩
    intro name
    exact Entries.find?_of_perm (String.exact_key name) entries (nodup_keys_effectiveOf rules)

def repeated : List LintRule :=
  [⟨"a", .deny, false⟩, ⟨"b", .warn, false⟩, ⟨"a", .deny, false⟩, ⟨"c", .deny, false⟩,
    ⟨"b", .warn, false⟩]

theorem repeated_in_any_order : conflictsOf repeated = [] ∧
    effectiveOf repeated.reverse = [("b", .warn), ("c", .deny), ("a", .deny)] ∧
    ∀ name, Entries.find? (effectiveOf repeated) name =
      Entries.find? (effectiveOf repeated.reverse) name := by
  have none : conflictsOf repeated = [] := by decide
  obtain ⟨-, alike⟩ := conflicts_silent_changes repeated
  obtain ⟨-, -, same⟩ := alike none (by decide) _ (List.reverse_perm repeated).symm
  exact ⟨none, by decide, same⟩

/-- An announced change is no conflict, but the change after it is. -/
example : conflictsOf [⟨"a", .warn, false⟩, ⟨"a", .deny, true⟩, ⟨"a", .warn, false⟩] =
    [⟨"a", .deny, .warn⟩] := by decide

end BuildRules.LintPolicy
