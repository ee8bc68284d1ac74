import BuildRules.Policy
import BuildRules.Proofs.Stage.Plan

namespace BuildRules.Policy

/-- Stages as they are declared, each with its place as the ordinal it has by default. -/
inductive DeclaredStages (pipeline : Record) : List Stage → Prop where
  | absent (falsy : ((Record.get? pipeline "stages").getD .null).truthy = false) :
      DeclaredStages pipeline []
  | list {items : List Value} {declared : List Stage}
      (listed : Record.get? pipeline "stages" = some (.list items))
      (read : List.Forall₂ (fun item stage => Stage.parse item.1 item.2 = .ok stage)
        items.zipIdx declared) : DeclaredStages pipeline declared

theorem parseStages_eq_ok {items : List Value} {place : Nat} {declared : List Stage} :
    parseStages place items = .ok declared ↔
      List.Forall₂ (fun item stage => Stage.parse item.1 item.2 = .ok stage)
        (items.zipIdx place) declared := by
  induction items generalizing place declared with
  | nil =>
    simp only [parseStages, Except.ok.injEq, List.zipIdx_nil, List.forall₂_nil_left_iff]
    exact eq_comm
  | cons item rest ih =>
    simp only [parseStages, bind_eq_ok, ih, Except.ok.injEq, List.zipIdx_cons,
      List.forall₂_cons_left_iff]
    constructor
    · rintro ⟨stage, read, later, reads, rfl⟩
      exact ⟨stage, later, read, reads, rfl⟩
    · rintro ⟨stage, later, read, reads, rfl⟩
      exact ⟨stage, read, later, reads, rfl⟩

theorem undeclared?_eq_none {aliases : AliasTable} {stages : List Stage} :
    undeclared? aliases stages = none ↔
      ∀ stage ∈ stages, ∀ name, stage.alias_ = some name → aliases.has name = true := by
  rw [undeclared?, List.findSome?_eq_none_iff]
  refine forall_congr' fun stage => forall_congr' fun _ => ?_
  cases named : stage.alias_ with
  | none => simp
  | some name => simp

theorem planned_of_stagesOf {pipeline : Record} {aliases : AliasTable} {stages : List Stage}
    (read : stagesOf pipeline aliases = .ok stages) :
    ∃ declared, DeclaredStages pipeline declared ∧
      (∀ stage ∈ declared, ∀ name, stage.alias_ = some name → aliases.has name = true) ∧
      planStages declared = .ok stages := by
  unfold stagesOf at read
  dsimp only at read
  split at read
  next falsy =>
    cases read
    exact ⟨[], .absent (by simpa using falsy), by simp, rfl⟩
  next truthy =>
    split at read
    next items listed =>
      obtain ⟨declared, parsed, read⟩ := bind_eq_ok.mp read
      split at read
      next => cases read
      next known =>
        refine ⟨declared, .list ?_ (parseStages_eq_ok.mp parsed), undeclared?_eq_none.mp known, read⟩
        cases given : Record.get? pipeline "stages" with
        | none =>
          rw [given] at listed
          cases listed
        | some value =>
          rw [given] at listed
          exact congrArg some listed
    next => cases read

theorem load_eq_ok {check : VendorCheck} {config : Record} {sections : Policy} {text : String}
    (read : loadSections check config "" = .ok sections)
    (written : Config.canonicalText (.map config) = .ok text) :
    load check (.map config) =
      .ok { sections with identity := Sha256.hex text.toUTF8.toList } := by
  simp only [load, read, written]

theorem load_eq_error {check : VendorCheck} {config : Record} {error : PolicyError}
    (failed : loadSections check config "" = .error error) :
    load check (.map config) = .error error := by
  simp only [load, failed]

/-- The sections of a policy that loads have loaded, and the configuration has a text. -/
theorem sections_of_load {check : VendorCheck} {config : Value} {policy : Policy}
    (loaded : load check config = .ok policy) :
    ∃ entries sections text, config = .map entries ∧
      loadSections check entries "" = .ok sections ∧
      Config.canonicalText (.map entries) = .ok text ∧
      policy = { sections with identity := Sha256.hex text.toUTF8.toList } := by
  unfold load at loaded
  split at loaded
  next entries =>
    split at loaded
    next => cases loaded
    next sections read =>
      split at loaded
      next => cases loaded
      next text written =>
        cases loaded
        exact ⟨entries, sections, text, rfl, read, written, rfl⟩
  next => cases loaded

/-- What each part of a policy was read from. -/
structure Loads (check : VendorCheck) (config : Record) (policy : Policy) : Prop where
  toolchain : toolchainOf config = .ok policy.toolchain
  vendor : ∃ section_, sectionOf config "vendor" .map = .ok section_ ∧
    VendorPolicy.parse section_ = .ok policy.vendor
  override : overrideOf policy.vendor check = .ok policy.override
  aliases : ∃ section_, sectionOf config "aliases" .map = .ok section_ ∧
    AliasTable.ofSection section_ [vendoredAlias policy.override] = .ok policy.aliases
  lints : ∃ section_, sectionOf config "lints" .list = .ok section_ ∧
    LintPolicy.parse section_ = .ok policy.lints
  pipeline : ∃ section_, sectionOf config "pipeline" .map = .ok section_ ∧
    stagesOf (entriesOf section_) policy.aliases = .ok policy.stages ∧
    TriggerPolicy.parse ((Record.get? (entriesOf section_) "triggers").getD .null) =
      .ok policy.triggers ∧
    Environment.parse ((Record.get? (entriesOf section_) "environment").getD .null) =
      .ok policy.environment
  doctor : ∃ section_, sectionOf config "doctor" .list = .ok section_ ∧
    doctorOf section_ = .ok policy.doctor

theorem loads_of_loadSections {check : VendorCheck} {config : Record} {identity : String}
    {policy : Policy} (read : loadSections check config identity = .ok policy) :
    Loads check config policy := by
  unfold loadSections at read
  obtain ⟨toolchain, toolchainRead, read⟩ := bind_eq_ok.mp read
  obtain ⟨vendorSection, vendorSectionRead, read⟩ := bind_eq_ok.mp read
  obtain ⟨vendor, vendorRead, read⟩ := bind_eq_ok.mp read
  obtain ⟨override, overrideRead, read⟩ := bind_eq_ok.mp read
  obtain ⟨aliasSection, aliasSectionRead, read⟩ := bind_eq_ok.mp read
  obtain ⟨aliases, aliasesRead, read⟩ := bind_eq_ok.mp read
  obtain ⟨lintSection, lintSectionRead, read⟩ := bind_eq_ok.mp read
  obtain ⟨lints, lintsRead, read⟩ := bind_eq_ok.mp read
  obtain ⟨pipelineSection, pipelineSectionRead, read⟩ := bind_eq_ok.mp read
  obtain ⟨stages, stagesRead, read⟩ := bind_eq_ok.mp read
  obtain ⟨triggers, triggersRead, read⟩ := bind_eq_ok.mp read
  obtain ⟨environment, environmentRead, read⟩ := bind_eq_ok.mp read
  obtain ⟨resolver, -, read⟩ := bind_eq_ok.mp read
  obtain ⟨depth, -, read⟩ := bind_eq_ok.mp read
  obtain ⟨doctorSection, doctorSectionRead, read⟩ := bind_eq_ok.mp read
  obtain ⟨doctor, doctorRead, read⟩ := bind_eq_ok.mp read
  cases read
  exact
    { toolchain := toolchainRead
      vendor := ⟨vendorSection, vendorSectionRead, vendorRead⟩
      override := overrideRead
      aliases := ⟨aliasSection, aliasSectionRead, aliasesRead⟩
      lints := ⟨lintSection, lintSectionRead, lintsRead⟩
      pipeline := ⟨pipelineSection, pipelineSectionRead, stagesRead, triggersRead, environmentRead⟩
      doctor := ⟨doctorSection, doctorSectionRead, doctorRead⟩ }

/-- The identity is added to a policy that has been read. -/
theorem Loads.identified {check : VendorCheck} {config : Record} {policy : Policy}
    (loads : Loads check config policy) (identity : String) :
    Loads check config { policy with identity } :=
  ⟨loads.toolchain, loads.vendor, loads.override, loads.aliases, loads.lints, loads.pipeline,
    loads.doctor⟩

theorem loads_of_load {check : VendorCheck} {config : Record} {policy : Policy}
    (loaded : load check (.map config) = .ok policy) : Loads check config policy := by
  obtain ⟨entries, sections, text, same, read, -, rfl⟩ := sections_of_load loaded
  cases same
  exact (loads_of_loadSections read).identified _

theorem planned_of_load {check : VendorCheck} {config : Value} {policy : Policy}
    (loaded : load check config = .ok policy) :
    ∃ declared, planStages declared = .ok policy.stages := by
  obtain ⟨entries, sections, text, -, read, -, rfl⟩ := sections_of_load loaded
  obtain ⟨pipeline, -, ordered, -⟩ := (loads_of_loadSections read).pipeline
  obtain ⟨declared, -, -, planned⟩ := planned_of_stagesOf ordered
  exact ⟨declared, planned⟩

theorem ascending_of_load {check : VendorCheck} {config : Value} {policy : Policy}
    (loaded : load check config = .ok policy) : Stage.Ascending policy.stages := by
  obtain ⟨declared, planned⟩ := planned_of_load loaded
  exact ascending_of_planStages planned

theorem names_of_load {check : VendorCheck} {config : Value} {policy : Policy}
    (loaded : load check config = .ok policy) : (policy.stages.map Stage.name).Nodup := by
  obtain ⟨declared, planned⟩ := planned_of_load loaded
  exact names_of_planStages planned

theorem stages_planned_of_load {check : VendorCheck} {config : Value} {policy : Policy}
    (loaded : load check config = .ok policy) : planStages policy.stages = .ok policy.stages := by
  obtain ⟨declared, planned⟩ := planned_of_load loaded
  exact planStages_again planned

theorem defaultDepth_pos : 0 < Resolver.defaultDepth := by decide

def bare (toolchain : String) : Policy where
  toolchain
  vendor := ⟨false, "", "", "", []⟩
  override := none
  aliases := .empty []
  lints := ⟨[]⟩
  stages := []
  triggers := ⟨[]⟩
  environment := .empty
  doctor := []
  maxDepth := Resolver.defaultDepth
  positive := defaultDepth_pos
  identity := ""

end BuildRules.Policy
