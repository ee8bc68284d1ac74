import BuildRules.Invocation
import BuildRules.Proofs.Alias.Exploration
import BuildRules.Proofs.Alias.Section
import BuildRules.Proofs.Alias.Switch
import BuildRules.Proofs.Lint.Effective
import BuildRules.Proofs.Policy.Verified
import BuildRules.Proofs.Stage.Declaration
import BuildRules.Proofs.Trigger

namespace BuildRules

namespace Policy

theorem ne_nil_of_doctorCommand {raw : Value} {command : List String}
    (read : doctorCommand raw = .ok command) : command ≠ [] := by
  unfold doctorCommand at read
  dsimp only at read
  split at read
  next =>
    split at read
    next => cases read; simp
    next => cases read
  next => cases read

theorem ne_nil_of_doctorOf {section_ : Value} {commands : List (List String)}
    (read : doctorOf section_ = .ok commands) : ∀ command ∈ commands, command ≠ [] := by
  unfold doctorOf at read
  split at read
  next items =>
    intro command member
    obtain ⟨item, -, parsed⟩ := exists_of_mem_mapM read member
    exact ne_nil_of_doctorCommand parsed
  next =>
    cases read
    simp

theorem isSome_of_overrideOf {vendor : VendorPolicy} {check : VendorCheck}
    {override : Option VendorOverride} (found : overrideOf vendor check = .ok override) :
    override.isSome = vendor.enabled := by
  cases check with
  | declared =>
    cases found
    cases enabled : vendor.enabled <;> simp [VendorPolicy.declared, enabled]
  | verified tree base =>
    rcases vendor.verified_cases tree base with moved | ⟨_, failed, -⟩
    · cases found.symm.trans moved
      cases enabled : vendor.enabled <;> simp [VendorPolicy.declared, enabled]
    · cases found.symm.trans failed

theorem switchArguments_eq_nil {override : Option VendorOverride} :
    switchArguments override = [] ↔ override.isSome = false := by
  cases override with
  | none => simp [switchArguments]
  | some override => simp [switchArguments, VendorOverride.arguments]

/-- Entries of a configuration that declare aliases, in order. -/
def DeclaredAliases (config : Record) (declared : List Alias) : Prop :=
  ∃ section_ entries, sectionOf config "aliases" .map = .ok section_ ∧
    AliasTable.sectionEntries? section_ = some entries ∧
    List.Forall₂ Alias.Declares entries declared

/-- Everything about a policy that is used without a check. -/
structure Sound (config : Record) (policy : Policy) : Prop where
  stageNames : ∀ stage ∈ policy.stages, Text.Stripped stage.name
  stageNamesDistinct : (policy.stages.map Stage.name).Nodup
  ascending : Stage.Ascending policy.stages
  stages : ∃ section_ declared, sectionOf config "pipeline" .map = .ok section_ ∧
    DeclaredStages (entriesOf section_) declared ∧ policy.stages.Perm declared
  /-- A stage has a declared alias and no arguments, or no alias. -/
  commands : ∀ stage ∈ policy.stages, stage.alias_ = none ∨
    ∃ name, stage.alias_ = some name ∧ policy.aliases.has name = true ∧ stage.arguments = []
  aliasNamesDistinct : policy.aliases.names.Nodup
  /-- The reserved alias stands for the switch and comes before all that is declared. -/
  aliases : ∃ declared, DeclaredAliases config declared ∧
    policy.aliases.aliases =
      ⟨Alias.vendoredName, (switchArguments policy.override).map .literal⟩ :: declared
  switch : switchArguments policy.override = [] ↔ policy.vendor.enabled = false
  lintNames : ∀ rule ∈ policy.lints.rules, Text.Stripped rule.name
  doctor : ∀ command ∈ policy.doctor, command ≠ []
  triggers : ∀ row ∈ policy.triggers.branches, row.1 = "push" ∨ row.1 = "pull_request"
  depth : 1 ≤ policy.maxDepth ∧
    Resolver.ofDepth? policy.aliases policy.maxDepth = some policy.resolver
  /-- The alias of a stage is never missing itself. -/
  roots : ∀ stage ∈ policy.stages, ∀ name,
    policy.stageArguments stage ≠ .error (.unknown name none)

section Parts

variable {check : VendorCheck} {config : Record} {policy : Policy}

theorem ofDepth?_maxDepth (policy : Policy) :
    Resolver.ofDepth? policy.aliases policy.maxDepth = some policy.resolver := by
  rw [Resolver.ofDepth?, dif_pos (by simpa using policy.positive)]
  rfl

theorem Loads.stages (loads : Loads check config policy) :
    ∃ section_ declared, sectionOf config "pipeline" .map = .ok section_ ∧
      DeclaredStages (entriesOf section_) declared ∧
      (∀ stage ∈ declared, ∀ name, stage.alias_ = some name →
        policy.aliases.has name = true) ∧
      planStages declared = .ok policy.stages := by
  obtain ⟨section_, found, read, -⟩ := loads.pipeline
  obtain ⟨declared, stages, known, planned⟩ := planned_of_stagesOf read
  exact ⟨section_, declared, found, stages, known, planned⟩

theorem DeclaredStages.formed {pipeline : Record} {declared : List Stage}
    (stages : DeclaredStages pipeline declared) : ∀ stage ∈ declared, stage.Formed := by
  cases stages with
  | absent => simp
  | list _ read =>
    intro stage member
    obtain ⟨item, -, parsed⟩ := exists_of_forall₂ read.flip member
    exact Stage.formed_of_parse parsed

theorem Loads.declaredAliases (loads : Loads check config policy) :
    policy.aliases.names.Nodup ∧ ∃ declared, DeclaredAliases config declared ∧
      policy.aliases.aliases =
        ⟨Alias.vendoredName, (switchArguments policy.override).map .literal⟩ :: declared := by
  obtain ⟨section_, found, read⟩ := loads.aliases
  obtain ⟨entries, declared, present, parses, -, -, aliases⟩ :=
    (AliasTable.ofSection_eq_ok rfl).mp read
  refine ⟨policy.aliases.distinct, declared, ⟨section_, entries, found, present, parses⟩, ?_⟩
  rw [aliases]
  cases policy.override <;> rfl

/-- A declared alias that does not resolve fails further down. -/
theorem resolve_ne_unknown {resolver : Resolver} {alias_ name : String}
    (declared : resolver.table.has alias_ = true) :
    resolver.resolve alias_ ≠ .error (.unknown name none) := by
  intro failed
  cases Resolver.resolve_genuine failed with
  | missing absent =>
    rw [declared] at absent
    cases absent

end Parts

/-- Whatever loads can be used without a further check. -/
theorem sound_of_load {check : VendorCheck} {config : Record} {policy : Policy}
    (loaded : load check (.map config) = .ok policy) : Sound config policy := by
  have loads := loads_of_load loaded
  obtain ⟨section_, declared, found, stages, known, planned⟩ := loads.stages
  obtain ⟨ordered, again, perm, ascending⟩ :=
    planStages_of_distinct (distinct_of_planStages planned)
  cases planned.symm.trans again
  have formed : ∀ stage ∈ policy.stages, stage.Formed := fun stage member =>
    stages.formed stage (perm.mem_iff.mp member)
  have aliased : ∀ stage ∈ policy.stages, ∀ name, stage.alias_ = some name →
      policy.aliases.has name = true := fun stage member =>
    known stage (perm.mem_iff.mp member)
  obtain ⟨aliasNames, aliases⟩ := loads.declaredAliases
  obtain ⟨_, -, lints⟩ := loads.lints
  obtain ⟨_, -, doctor⟩ := loads.doctor
  obtain ⟨_, -, -, triggers, -⟩ := loads.pipeline
  exact
    { stageNames := fun stage member => (formed stage member).named
      stageNamesDistinct := by
        rw [(perm.map Stage.name).nodup_iff]
        exact (distinct_of_planStages planned).names
      ascending
      stages := ⟨section_, declared, found, stages, perm⟩
      commands := by
        intro stage member
        cases named : stage.alias_ with
        | none => exact .inl rfl
        | some name =>
          refine .inr ⟨name, rfl, aliased stage member name named, ?_⟩
          exact (formed stage member).command.resolve_left (by simp [named])
      aliasNamesDistinct := aliasNames
      aliases
      switch := by rw [switchArguments_eq_nil, isSome_of_overrideOf loads.override]
      lintNames := by
        intro rule member
        obtain ⟨item, parsed⟩ := LintPolicy.rule_of_parse lints member
        exact LintRule.stripped_of_parse parsed
      doctor := ne_nil_of_doctorOf doctor
      triggers := TriggerPolicy.events_of_parse triggers
      depth := ⟨policy.positive, ofDepth?_maxDepth policy⟩
      roots := by
        intro stage member name
        rw [stageArguments]
        cases named : stage.alias_ with
        | none => simp
        | some alias_ => exact resolve_ne_unknown (aliased stage member alias_ named) }

def complete : Record :=
  Record.ofFields [
    ("vendor", .ofFields [("enabled", .bool true), ("path", .text "third_party")]),
    ("aliases", .ofFields [("check-all", .text "__vendored check --all"),
      ("lint", .list [.ofFields [("alias", .text "check-all")], .text "clippy"])]),
    ("lints", .list [.text "-D dead_code",
      .ofFields [("name", .text " unused "), ("severity", .text "warn")]]),
    ("pipeline", .ofFields [
      ("stages", .list [
        .ofFields [("name", .text "test"), ("args", .text "test --all"), ("ordinal", .int 7)],
        .ofFields [("name", .text " lint "), ("alias", .text "lint")]]),
      ("triggers", .ofFields [("push", .ofTexts ["main"])])]),
    ("doctor", .ofTexts ["cargo --version"]),
    ("resolver", .ofFields [("max_depth", .int 4)])]

theorem complete_loads_soundly :
    ∃ policy, load .declared (.map complete) = .ok policy ∧ Sound complete policy ∧
      policy.stages.map Stage.name = ["lint", "test"] := by
  have loads : (load .declared (.map complete)).isOk = true := by decide +kernel
  have names : (load .declared (.map complete)).toOption.map
      (fun policy => policy.stages.map Stage.name) = some ["lint", "test"] := by decide +kernel
  obtain ⟨policy, loaded⟩ := exists_of_isOk loads
  rw [loaded] at names
  exact ⟨policy, loaded, sound_of_load loaded, Option.some.inj names⟩

end Policy
end BuildRules
