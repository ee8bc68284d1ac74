import BuildRules.Proofs.Alias.Reordered
import BuildRules.Proofs.Config.Identity
import BuildRules.Proofs.Policy
import BuildRules.Proofs.Policy.Sections
import BuildRules.Proofs.Trigger
import BuildRules.Run.Runner

namespace BuildRules

open Value

section Resolution

variable {table other : AliasTable}

theorem AliasTable.meaning_congr (same : ∀ name, table.find? name = other.find? name)
    (token : Token) : table.meaning token = other.meaning token := by
  cases token with
  | literal text => rfl
  | word text => simp only [meaning, same]
  | reference name => simp only [meaning, same]

theorem AliasTable.has_congr (same : ∀ name, table.find? name = other.find? name) (name : String) :
    table.has name = other.has name := by
  rw [Bool.eq_iff_iff, has_iff_find?, has_iff_find?, same]

/-- Tables in which the same names have the same aliases resolve alike. -/
theorem Resolver.resolve_congr (same : ∀ name, table.find? name = other.find? name)
    {maxDepth : Nat} (positive : 0 < maxDepth) (name : String) :
    resolve ⟨table, maxDepth, positive⟩ name = resolve ⟨other, maxDepth, positive⟩ name := by
  have steps (root : String) (written onPath : List String) (frame : Frame) (below : List Frame) :
      advance table maxDepth root written onPath frame below =
        advance other maxDepth root written onPath frame below := by
    simp only [advance, AliasTable.meaning_congr same]
  have runs (root : String) (state : Expansion) :
      runStack table maxDepth root state = runStack other maxDepth root state := by
    fun_induction runStack table maxDepth root state with
    | case1 => rw [runStack]
    | case2 written frame below onPath error failed =>
      rw [runStack, ← steps, failed]
    | case3 written frame below onPath after advanced ih =>
      rw [runStack, ← steps, advanced]
      exact ih
  simp only [resolve, same, runs]

end Resolution

namespace Policy

/-- Policies that no use tells apart. -/
structure Alike (policy other : Policy) : Prop where
  toolchain : policy.toolchain = other.toolchain
  vendor : policy.vendor = other.vendor
  override : policy.override = other.override
  lints : policy.lints = other.lints
  stages : policy.stages = other.stages
  environment : policy.environment = other.environment
  doctor : policy.doctor = other.doctor
  maxDepth : policy.maxDepth = other.maxDepth
  identity : policy.identity = other.identity
  aliases : ∀ name, policy.aliases.find? name = other.aliases.find? name
  triggers : ∀ event branch, policy.triggers.fires event branch = other.triggers.fires event branch

namespace Alike

variable {policy other : Policy}

theorem resolve (alike : Alike policy other) (name : String) :
    policy.resolver.resolve name = other.resolver.resolve name := by
  obtain ⟨_, _, _, _, _, _, _, _, _, _, positive, _⟩ := policy
  obtain ⟨_, _, _, _, _, _, _, _, _, _, _, _⟩ := other
  cases alike.maxDepth
  exact Resolver.resolve_congr alike.aliases positive name

theorem stageArguments (alike : Alike policy other) (stage : Stage) :
    policy.stageArguments stage = other.stageArguments stage := by
  simp only [Policy.stageArguments, alike.resolve]

end Alike
end Policy

namespace Runner

variable {policy other : Policy} {environment : Environment} {directory : Option String}
  {world : World}

theorem prepare_alike (alike : Policy.Alike policy other) (stages : List Stage) :
    prepare ⟨policy, environment, directory, world⟩ stages =
      prepare ⟨other, environment, directory, world⟩ stages := by
  induction stages with
  | nil => rfl
  | cons stage rest ih =>
    simp only [prepare, alike.stageArguments, ih, Policy.command, alike.lints, alike.toolchain]

theorem conclude_alike (alike : Policy.Alike policy other) (stage : Stage)
    (arguments : List String) (started finished : Timestamp) (response : Response) :
    conclude ⟨policy, environment, directory, world⟩ stage arguments started finished response =
      conclude ⟨other, environment, directory, world⟩ stage arguments started finished
        response := by
  cases response with
  | error interruption => rfl
  | ok result =>
    have found : violations ⟨policy, environment, directory, world⟩ result =
        violations ⟨other, environment, directory, world⟩ result := by
      simp only [violations, alike.lints]
    simp only [conclude, completed, found]
    rfl

theorem runStage_alike (alike : Policy.Alike policy other) (stage : Stage) (command : Command) :
    runStage ⟨policy, environment, directory, world⟩ stage command =
      runStage ⟨other, environment, directory, world⟩ stage command := by
  simp only [runStage, conclude_alike alike]
  rfl

theorem runFrom_alike (alike : Policy.Alike policy other) (index : Nat) (done : List StageOutcome)
    (commands : List (Stage × Command)) :
    runFrom ⟨policy, environment, directory, world⟩ index done commands =
      runFrom ⟨other, environment, directory, world⟩ index done commands := by
  induction commands generalizing index done with
  | nil => rfl
  | cons entry rest ih =>
    obtain ⟨stage, command⟩ := entry
    simp only [runFrom, ih, runStage_alike alike]
    rfl

theorem run_alike (alike : Policy.Alike policy other) (stages : Option (List Stage)) :
    run ⟨policy, environment, directory, world⟩ stages =
      run ⟨other, environment, directory, world⟩ stages := by
  simp only [run, alike.stages, alike.lints, prepare_alike alike, runFrom_alike alike]
  rfl

end Runner

namespace Policy

/-- Fields whose text is taken over as it is shown. -/
structure Spelled (config : Record) : Prop where
  vendor : ∀ vendor, Record.get? config "vendor" = some (.map vendor) →
    VendorPolicy.Spelled vendor
  environment : ∀ pipeline environment, Record.get? config "pipeline" = some (.map pipeline) →
    Record.get? pipeline "environment" = some (.map environment) →
    Record.LeafAt environment "backtrace"

theorem get?_of_sectionOf {config entries : Record} {name : String} {expected : Kind}
    (read : sectionOf config name expected = .ok (.map entries)) :
    Record.get? config name = some (.map entries) := by
  unfold sectionOf at read
  split at read
  next => cases read
  next => cases read
  next value _ present =>
    split at read
    next =>
      cases read
      exact present
    next => cases read

section Loading

variable {left right : Record} {check : VendorCheck}

theorem environment_reordered {pipeline other : Value} (reordered : Reordered pipeline other)
    (spelled : ∀ entries environment, pipeline = .map entries →
      Record.get? entries "environment" = some (.map environment) →
      Record.LeafAt environment "backtrace") :
    Agree Eq (Environment.parse ((Record.get? (entriesOf pipeline) "environment").getD .null))
      (Environment.parse ((Record.get? (entriesOf other) "environment").getD .null)) := by
  have found := (entriesOf_reordered reordered).get? "environment"
  apply Environment.parse_reordered found.getD
  intro environment present
  cases pipeline with
  | scalar | list => cases present
  | map entries =>
    apply spelled entries environment rfl
    cases given : Record.get? entries "environment" with
    | none =>
      rw [entriesOf, given] at present
      cases present
    | some value =>
      rw [entriesOf, given] at present
      exact congrArg some present

theorem loadSections_reordered (reordered : Reordered (.map left) (.map right))
    (spelled : Spelled left) (check : VendorCheck) (identity : String) :
    Agree Alike (loadSections check left identity) (loadSections check right identity) := by
  unfold loadSections
  -- section by section, in the order in which they are loaded: the first fault ends both
  refine (toolchainOf_reordered reordered).bind ?_
  rintro toolchain _ rfl
  refine (sectionOf_reordered reordered "vendor" .map).remember.bind ?_
  rintro vendorSection _ ⟨vendorSections, vendorRead⟩
  have vendorSpelled (vendor : Record) (given : vendorSection = .map vendor) :
      VendorPolicy.Spelled vendor :=
    spelled.vendor vendor (get?_of_sectionOf (given ▸ vendorRead))
  refine (VendorPolicy.parse_reordered vendorSections vendorSpelled).bind ?_
  rintro vendor _ rfl
  refine (Agree.refl (overrideOf vendor check)).bind ?_
  rintro override _ rfl
  refine (sectionOf_reordered reordered "aliases" .map).bind fun _ _ aliasSections => ?_
  refine (AliasTable.ofSection_reordered rfl aliasSections).bind fun aliases _ tables => ?_
  refine (sectionOf_reordered reordered "lints" .list).bind fun _ _ lintSections => ?_
  refine (LintPolicy.parse_reordered lintSections).bind ?_
  rintro lints _ rfl
  refine (sectionOf_reordered reordered "pipeline" .map).remember.bind ?_
  rintro pipeline _ ⟨pipelines, pipelineRead⟩
  have entries := entriesOf_reordered pipelines
  have declared (name : String) : aliases.has name = _ := AliasTable.has_congr tables name
  refine (stagesOf_reordered entries declared).bind ?_
  rintro stages _ rfl
  refine (TriggerPolicy.parse_reordered (entries.get? "triggers").getD).bind fun _ _ triggers => ?_
  have environmentSpelled (entries environment : Record) (given : pipeline = .map entries) :=
    spelled.environment entries environment (get?_of_sectionOf (given ▸ pipelineRead))
  refine (environment_reordered pipelines environmentSpelled).bind ?_
  rintro environment _ rfl
  refine (sectionOf_reordered reordered "resolver" .map).bind fun _ _ resolvers => ?_
  refine (depthOf_reordered (entriesOf_reordered resolvers)).bind ?_
  rintro depth _ rfl
  refine (sectionOf_reordered reordered "doctor" .list).bind fun _ _ doctors => ?_
  refine (doctorOf_reordered doctors).bind ?_
  rintro doctor _ rfl
  exact .ok ⟨rfl, rfl, rfl, rfl, rfl, rfl, rfl, rfl, rfl, tables, triggers⟩

theorem Alike.identified {policy other : Policy} (alike : Alike policy other) (identity : String) :
    Alike { policy with identity } { other with identity } :=
  { alike with identity := rfl, aliases := alike.aliases, triggers := alike.triggers }

/-- Configurations that differ in the order of entries, of plain values whose integers have a text,
are both refused, for faults of one class, or both have a policy. The policies are alike, every name
resolves alike, and every run starts the same commands and ends alike whatever it meets. -/
theorem load_of_rearranged (leftPlain : Plain (.map left)) (rightPlain : Plain (.map right))
    (written : Written (.map left)) (same : Rearranged (.map left) (.map right))
    (spelled : Spelled left) (check : VendorCheck) :
    (∃ error other, load check (.map left) = .error error ∧
      load check (.map right) = .error other ∧ error.Alike other) ∨
    ∃ policy other, load check (.map left) = .ok policy ∧ load check (.map right) = .ok other ∧
      Alike policy other ∧
      (∀ name, policy.resolver.resolve name = other.resolver.resolve name) ∧
      ∀ environment directory world stages progress,
        (Runner.run ⟨policy, environment, directory, world⟩ stages).run.run progress =
          (Runner.run ⟨other, environment, directory, world⟩ stages).run.run progress := by
  obtain ⟨leftText, rightText, leftWritten, rightWritten, texts⟩ :=
    Config.exists_canonicalTexts leftPlain rightPlain written (written.of_rearranged same)
  cases texts.mpr same
  have agree := loadSections_reordered ⟨leftPlain, rightPlain, written, same⟩ spelled check ""
  cases leftRead : loadSections check left "" with
  | error error =>
    cases rightRead : loadSections check right "" with
    | error other =>
      rw [leftRead, rightRead] at agree
      cases agree with
      | error alike =>
        exact .inl ⟨error, other, load_eq_error leftRead, load_eq_error rightRead, alike⟩
    | ok sections =>
      rw [leftRead, rightRead] at agree
      cases agree
  | ok sections =>
    cases rightRead : loadSections check right "" with
    | error other =>
      rw [leftRead, rightRead] at agree
      cases agree
    | ok others =>
      rw [leftRead, rightRead] at agree
      cases agree with
      | ok alike =>
        have identified := alike.identified (Sha256.hex leftText.toUTF8.toList)
        refine .inr ⟨_, _, load_eq_ok leftRead leftWritten, load_eq_ok rightRead rightWritten,
          identified, identified.resolve, ?_⟩
        intro environment directory world stages progress
        rw [Runner.run_alike identified]

end Loading

def nested : Record :=
  Record.ofFields [
    ("aliases", .ofFields [("lint", .text "clippy --all"), ("ci", .text "lint -q")]),
    ("pipeline", .ofFields [
      ("stages", .list [.ofFields [("name", .text "lint"), ("alias", .text "ci")]])])]

def shuffled : Record :=
  Record.ofFields [
    ("pipeline", .ofFields [
      ("stages", .list [.ofFields [("alias", .text "ci"), ("name", .text "lint")]])]),
    ("aliases", .ofFields [("ci", .text "lint -q"), ("lint", .text "clippy --all")])]

theorem shuffled_alike :
    Plain (.map nested) ∧ Plain (.map shuffled) ∧ Written (.map nested) ∧
      Rearranged (.map nested) (.map shuffled) ∧ Spelled nested ∧
      ∃ policy other, load .declared (.map nested) = .ok policy ∧
        load .declared (.map shuffled) = .ok other ∧ Alike policy other := by
  have fields (first second : String × Value) (apart : first.1 ≠ second.1)
      (one : Storable first.2) (two : Storable second.2) : Storable (.ofFields [first, second]) :=
    .ofFields (by simpa using apart) (by simp [one, two])
  have stages (stage : Value) (storable : Storable stage) :
      Storable (.ofFields [("stages", .list [stage])]) :=
    .ofFields (by simp) (by simpa using Storable.list (by simpa using storable))
  have nestedStorable : Storable (.map nested) :=
    fields _ _ (by decide) (fields _ _ (by decide) (.text _) (.text _))
      (stages _ (fields _ _ (by decide) (.text _) (.text _)))
  have shuffledStorable : Storable (.map shuffled) :=
    fields _ _ (by decide) (stages _ (fields _ _ (by decide) (.text _) (.text _)))
      (fields _ _ (by decide) (.text _) (.text _))
  have spelled : Spelled nested := by
    constructor
    · intro vendor present
      simp [nested] at present
    · intro pipeline environment present given
      obtain rfl : Record.ofFields _ = pipeline := by simpa [nested, Value.ofFields] using present
      simp at given
  have same : Rearranged (.map nested) (.map shuffled) := by
    obtain ⟨text, other, written, rewritten, texts⟩ :=
      Config.exists_canonicalTexts nestedStorable.plain shuffledStorable.plain
        nestedStorable.written shuffledStorable.written
    have equal : (Config.canonicalText (.map nested)).toOption =
        (Config.canonicalText (.map shuffled)).toOption := by decide +kernel
    rw [written, rewritten] at equal
    exact texts.mp (Option.some.inj equal)
  have loads : (load .declared (.map nested)).isOk = true := by decide +kernel
  refine ⟨nestedStorable.plain, shuffledStorable.plain, nestedStorable.written, same, spelled, ?_⟩
  rcases load_of_rearranged nestedStorable.plain shuffledStorable.plain nestedStorable.written same
    spelled .declared with ⟨_, _, refused, -⟩ | ⟨policy, other, loaded, reloaded, alike, -⟩
  · rw [refused] at loads
    cases loads
  · exact ⟨policy, other, loaded, reloaded, alike⟩

/-- The same alias twice over: a list with an integer that has no text in it, and that integer. -/
def namedThenBare : Record :=
  Record.ofFields [("aliases", .ofFields
    [("b", .list [.int Number.overlong]), ("a", .int Number.overlong)])]

def bareThenNamed : Record :=
  Record.ofFields [("aliases", .ofFields
    [("a", .int Number.overlong), ("b", .list [.int Number.overlong])])]

theorem load_of_aliases {section_ : Record} {error : PolicyError}
    (failed : AliasTable.ofSection (.map section_) [vendoredAlias none] = .error error) :
    load .declared (.map (Record.ofFields [("aliases", .map section_)])) = .error error := by
  apply load_eq_error
  change (AliasTable.ofSection (.map section_) [vendoredAlias none] >>= _) = _
  rw [failed]
  rfl

/-- Which of two faults comes first decides whether there is a message. -/
theorem overlong_alias_unlike :
    Plain (.map namedThenBare) ∧ Plain (.map bareThenNamed) ∧
      Rearranged (.map namedThenBare) (.map bareThenNamed) ∧ Spelled namedThenBare ∧
      load .declared (.map namedThenBare) = .error (.shape .integerTooLong) ∧
      load .declared (.map bareThenNamed) = .error (.config (.aliasDefinition "a" .int)) := by
  have fields (first second : String × Value) (apart : first.1 ≠ second.1)
      (one : Plain first.2) (two : Plain second.2) :
      Plain (.ofFields [("aliases", .ofFields [first, second])]) :=
    plain_ofFields (by simp)
      (by simpa using plain_ofFields (by simpa using apart) (by simp [one, two]))
  have listed : Plain (.list [.int Number.overlong]) := .list (by simp [Plain.scalar])
  have swapped : Rearranged (.map namedThenBare) (.map bareThenNamed) := by
    refine .map (.refl _) rfl (.cons ?_ .nil)
    exact .map (.swap _ _ []) rfl (List.forall₂_same.mpr fun value _ => .refl value)
  have spelled : Spelled namedThenBare := by
    constructor
    · intro vendor present
      simp [namedThenBare] at present
    · intro pipeline environment present
      simp [namedThenBare] at present
  have unnamed : PolicyError.raised (.aliasToken "b" (.int Number.overlong)) =
      .shape .integerTooLong := by
    rw [PolicyError.raised, ConfigError.message, Value.quoted, Scalar.quoted,
      Number.display_overlong]
    rfl
  refine ⟨fields _ _ (by decide) listed (.scalar _), fields _ _ (by decide) (.scalar _) listed,
    swapped, spelled, load_of_aliases ?_, load_of_aliases rfl⟩
  rw [← unnamed]
  rfl

end Policy
end BuildRules
