import BuildRules.Invocation
import BuildRules.Proofs.Lint.Effective

/-! The compiler gets all flags as one text and splits it at white space. It gets the flags that
were meant just when no name has white space within it. -/
namespace BuildRules.LintPolicy

open Text

variable {policy : LintPolicy} {raw : Value}

theorem flags_eq (policy : LintPolicy) :
    policy.flags = policy.effective.map fun entry => entry.2.flag ++ entry.1 := by
  rw [flags, flagPairs, List.map_map]
  rfl

theorem unbroken_flag (severity : Severity) (name : String) :
    Unbroken (severity.flag ++ name) ↔ Unbroken name := by
  have dashed : Unbroken severity.flag := by
    cases severity <;> exact List.forall_iff_forall_mem.mp (by decide)
  simp [unbroken_append, dashed]

theorem flag_ne_empty (severity : Severity) (name : String) : severity.flag ++ name ≠ "" := by
  intro empty
  have none := congrArg String.length empty
  rw [String.length_append] at none
  cases severity <;> simp [Severity.flag] at none

/-- The flags come back just when every name is one word. -/
theorem words_compilerFlags_iff (policy : LintPolicy) :
    words policy.compilerFlags = policy.flags ↔ ∀ rule ∈ policy.rules, Unbroken rule.name := by
  rw [flags_eq, compilerFlags, flags_eq]
  constructor
  · intro split rule member
    obtain ⟨severity, present⟩ := exists_mem_effectiveOf member
    have flag : severity.flag ++ rule.name ∈ policy.effective.map
        fun entry => entry.2.flag ++ entry.1 := List.mem_map.mpr ⟨_, present, rfl⟩
    rw [← split] at flag
    exact (unbroken_flag severity rule.name).mp (mem_words flag).2
  · intro unbroken
    apply words_intercalate
    intro flag member
    obtain ⟨entry, present, rfl⟩ := List.mem_map.mp member
    obtain ⟨rule, declared, rfl⟩ := rule_of_mem_effectiveOf present
    exact ⟨flag_ne_empty _ _, (unbroken_flag _ _).mpr (unbroken rule declared)⟩

theorem compilerFlags_eq_empty_iff (policy : LintPolicy) :
    policy.compilerFlags = "" ↔ policy.rules = [] := by
  constructor
  · intro empty
    by_contra declared
    obtain ⟨rule, member⟩ := List.exists_mem_of_ne_nil _ declared
    obtain ⟨severity, present⟩ := exists_mem_effectiveOf member
    obtain ⟨entry, rest, entries⟩ := List.exists_cons_of_ne_nil (List.ne_nil_of_mem present)
    have first := flag_ne_empty entry.2 entry.1
    rw [compilerFlags, flags_eq, effective, entries, List.map_cons] at empty
    cases rest with
    | nil => exact first (by simpa using empty)
    | cons next rest => simp at empty
  · intro none
    rw [compilerFlags, flags, flagPairs, effective, none]
    rfl

theorem find?_vars_flagsVariable (environment : Environment) :
    Entries.find? environment.vars Environment.flagsVariable = none := by
  apply Entries.find?_eq_none_of_not_mem (String.exact_key _)
  intro member
  obtain ⟨entry, present, key⟩ := List.mem_map.mp member
  rcases List.mem_append.mp present with backtrace | color
  · split at backtrace
    next =>
      obtain rfl := List.mem_singleton.mp backtrace
      simp [Environment.backtraceVariable, Environment.flagsVariable] at key
    next => cases backtrace
  · split at color
    next =>
      obtain rfl := List.mem_singleton.mp color
      simp [Environment.colorVariable, Environment.flagsVariable] at key
    next => cases color

/-- Every command is given the flags in one variable, if there are any. -/
theorem flagsVariable_of_command (whole : Policy) (environment : Environment)
    (directory : Option String) (arguments : List String) :
    Entries.find? (whole.command environment directory arguments).vars
        Environment.flagsVariable =
      if whole.lints.rules = [] then none else some whole.lints.compilerFlags := by
  unfold Policy.command
  dsimp only
  by_cases none : whole.lints.rules = []
  · have empty : (whole.lints.compilerFlags == "") = true := by
      simpa using (compilerFlags_eq_empty_iff whole.lints).mpr none
    rw [if_pos none, if_pos empty]
    exact find?_vars_flagsVariable environment
  · have some : ¬ (whole.lints.compilerFlags == "") = true := by
      simpa using mt (compilerFlags_eq_empty_iff whole.lints).mp none
    rw [if_neg none, if_neg some]
    exact Entries.find?_insert_self (String.exact_key _) _

theorem mapM_of_parse {items : List Value} (parsed : parse (.list items) = .ok policy) :
    items.mapM LintRule.parse = .ok policy.rules := by
  obtain ⟨rules, read, built⟩ := bind_eq_ok.mp parsed
  cases built
  exact read

/-- Only a rule that is given as a map can have white space within its name. -/
theorem unbroken_iff_of_parse {items : List Value} (parsed : parse (.list items) = .ok policy) :
    (∀ rule ∈ policy.rules, Unbroken rule.name) ↔
      ∀ entries name, .map entries ∈ items → Record.get? entries "name" = some (.text name) →
        Unbroken (trim name) := by
  have read := mapM_of_parse parsed
  constructor
  · intro unbroken entries name member found
    obtain ⟨rule, present, ruled⟩ := exists_of_forall₂ (mapM_eq_ok.mp read) member
    have kept := unbroken rule present
    have named := LintRule.named_of_parse ruled
    generalize rule.name = given at named kept
    cases named with
    | map other _ =>
      cases found.symm.trans other
      exact kept
  · intro unbroken rule member
    obtain ⟨item, present, ruled⟩ := exists_of_mem_mapM read member
    have named := LintRule.named_of_parse ruled
    generalize rule.name = given at named
    cases named with
    | text word => exact (mem_words word).2
    | map found _ => exact unbroken _ _ present found

/-- The compiler is given one flag for each effective severity and no other, just when no rule
that is a map has white space within its name. -/
theorem compiler_given_flags_iff {items : List Value}
    (parsed : parse (.list items) = .ok policy) :
    policy.flags = policy.effective.map (fun entry => entry.2.flag ++ entry.1) ∧
    (∀ (whole : Policy) (environment : Environment) (directory : Option String)
      (arguments : List String), whole.lints = policy →
      Entries.find? (whole.command environment directory arguments).vars
          Environment.flagsVariable =
        if policy.rules = [] then none else some policy.compilerFlags) ∧
    (words policy.compilerFlags = policy.flags ↔
      ∀ entries name, .map entries ∈ items → Record.get? entries "name" = some (.text name) →
        Unbroken (trim name)) := by
  refine ⟨flags_eq policy, ?_, ?_⟩
  · rintro whole environment directory arguments rfl
    exact flagsVariable_of_command whole environment directory arguments
  · rw [words_compilerFlags_iff]
    exact unbroken_iff_of_parse parsed

def mixed : List Value :=
  [.text " -D  dead_code", .ofFields [("name", .text "unused "), ("severity", .text "warn")],
    .text "-W dead_code"]

theorem mixed_compiler_given_flags :
    ∃ policy, parse (.list mixed) = .ok policy ∧
      policy.flags = ["-Wdead_code", "-Wunused"] ∧
      words policy.compilerFlags = policy.flags := by
  obtain ⟨policy, parsed⟩ := exists_of_isOk
    (by decide +kernel : (parse (.list mixed)).isOk = true)
  have flags : (parse (.list mixed)).toOption.map LintPolicy.flags =
      some ["-Wdead_code", "-Wunused"] := by decide +kernel
  rw [parsed] at flags
  obtain ⟨-, -, split⟩ := compiler_given_flags_iff parsed
  refine ⟨policy, parsed, Option.some.inj flags, split.mpr ?_⟩
  intro entries name member found
  simp only [mixed, Value.ofFields, List.mem_cons, List.not_mem_nil, Value.map.injEq, reduceCtorEq,
    false_or, or_false] at member
  rw [member] at found
  cases found
  exact List.forall_iff_forall_mem.mp (by decide)

def broken : Value :=
  .list [.ofFields [("name", .text "unused -Dwarnings"), ("severity", .text "warn")]]

/-- A name of two words makes two flags of one. -/
theorem broken_given_other_flags :
    ∃ policy, parse broken = .ok policy ∧ policy.flags = ["-Wunused -Dwarnings"] ∧
      words policy.compilerFlags = ["-Wunused", "-Dwarnings"] := by
  obtain ⟨policy, parsed⟩ := exists_of_isOk (by decide +kernel : (parse broken).isOk = true)
  have read : (parse broken).toOption = some ⟨[⟨"unused -Dwarnings", .warn, false⟩]⟩ := by
    decide +kernel
  rw [parsed] at read
  cases read
  exact ⟨_, parsed, by decide +kernel, by decide +kernel⟩

end BuildRules.LintPolicy
