import BuildRules.Proofs.CommandLine.Pipeline

/-! The gate: a call that runs the pipeline ends with the code of its outcome, says what became of
each stage, and leaves the files that were asked for. -/
namespace BuildRules.CommandLine

/-- Event and branch are given, and do not start the pipeline. -/
def Untriggered (options : CiOptions) (policy : Policy) : Prop :=
  ∃ event branch, options.event = some event ∧ options.branch = some branch ∧
    policy.triggers.fires event branch = false

/-- Readings of one kind that UTC can show, and answers that can be stored. -/
structure Recordable (setting : Setting) : Prop where
  started : setting.started.utc?.isSome
  clock : ∀ reading, (setting.world.clock reading).utc?.isSome
  oneKind : ∀ reading other, (setting.world.clock reading).offset.isSome =
    (setting.world.clock other).offset.isSome
  answers : ∀ number command, (setting.world.executor number command).Storable

structure Gates (result : RunResult) (code : Int) : Prop where
  passed : code = 0 ↔ result.outcome.ok = true
  cancelled : code = 130 ↔ ∃ stage, result.failedStage? = some stage ∧ stage.status = .cancelled
  failed : code ≠ 0 → code ≠ 130 → code = 1

theorem gates_of_judged {result : RunResult} (judged : Runner.Judged result) :
    Gates result (Session.exitCodeOf result) := by
  cases judged with
  | succeeded outcome blamed =>
    have code : Session.exitCodeOf result = 0 := by
      rw [Session.exitCodeOf, outcome]
    rw [code]
    refine ⟨?_, ?_, ?_⟩
    · simp [outcome, RunOutcome.ok]
    · simp [blamed]
    · exact fun other => absurd rfl other
  | @failed stage info reason outcome blamed told cancelled =>
    have code : Session.exitCodeOf result = if stage.status = .cancelled then 130 else 1 := by
      rw [Session.exitCodeOf, outcome]
      dsimp only
      rw [told]
      split
      next same =>
        obtain rfl : reason = "cancelled" := by simpa using same
        rw [if_pos (cancelled.mp rfl)]
      next other =>
        have spared : stage.status ≠ .cancelled := by
          intro status
          exact other (by rw [cancelled.mpr status])
        rw [if_neg spared]
    have only : (∃ other, result.failedStage? = some other ∧ other.status = .cancelled) ↔
        stage.status = .cancelled := by simp [blamed]
    rw [code]
    refine ⟨?_, ?_, ?_⟩
    · rw [outcome]
      split <;> simp [RunOutcome.ok]
    · rw [only]
      split <;> simp [*]
    · split <;> simp

/-- What a call leaves when it ran the pipeline: the code of the result, a line for each stage and
the outcome, and the files that were asked for. -/
structure Concluded (setting : Setting) (policy : Policy) (options : CiOptions) (result : RunResult)
    (ended : Ending × Trace) : Prop where
  code : ∃ code, ended.1 = .finished code ∧ Gates result code
  output : ended.2.output = Session.linesText (Session.resultLines result)
  manifest : ∀ path, Session.given options.manifest = some path →
    ∃ text stored, ended.2.files.find? (Path.ofText path) = some (.file text) ∧
      Manifest.read text = .ok stored ∧ Runner.Retells stored.outcome result
  report : ∀ path, Session.given options.report = some path →
    ended.2.files.find? (Path.ofText path) = some (.file
      (Report.resultText (setting.origin policy (Session.triggerOf options)) result))

section Call

variable {setting : Setting} {line : List String} {arguments : Arguments}
  {options : CiOptions} {config : Value} {policy : Policy}

theorem triggerOf_eq_some_iff {event branch : String} :
    Session.triggerOf options = some (event, branch) ↔
      options.event = some event ∧ options.branch = some branch := by
  obtain ⟨event?, branch?, manifest, report⟩ := options
  cases event? <;> cases branch? <;> simp [Session.triggerOf]

theorem call_of_untriggered (parsed : Arguments.parse line = .ok arguments)
    (asked : arguments.command = .ci options)
    (read : Config.load setting.yaml setting.files arguments.config arguments.local_ = .ok config)
    (loaded : Policy.load (setting.checkOf arguments.command) config = .ok policy)
    (untriggered : Untriggered options policy) :
    (call setting line).1 = .finished 0 ∧ (call setting line).2.commands = [] ∧
      (call setting line).2.files = setting.files := by
  obtain ⟨event, branch, eventGiven, branchGiven, still⟩ := untriggered
  have ready := Session.returns_loadPolicy read loaded (.start setting.files)
  have trigger := triggerOf_eq_some_iff.mpr ⟨eventGiven, branchGiven⟩
  have ran : Returns (Session.perform setting arguments) (.start setting.files) 0
      { Trace.start setting.files with
        output := "" ++ ("Pipeline not triggered for " ++ event ++ " on " ++ branch) ++ "\n" } := by
    rw [asked] at ready
    rw [Session.perform, asked]
    refine ready.andThen ?_
    rw [trigger]
    dsimp only
    rw [still]
    exact .andThen (Session.print_returns _ _) (.done _ _)
  rw [call_of_returns parsed ran]
  exact ⟨rfl, rfl, rfl⟩

theorem perform_of_triggered (asked : arguments.command = .ci options)
    (read : Config.load setting.yaml setting.files arguments.config arguments.local_ = .ok config)
    (loaded : Policy.load (setting.checkOf arguments.command) config = .ok policy)
    (triggered : ¬ Untriggered options policy) {code : Int} {after : Trace}
    (ran : Returns (Session.pipeline setting arguments options policy (Session.triggerOf options))
      (.start setting.files) code after) :
    Returns (Session.perform setting arguments) (.start setting.files) code after := by
  have ready := Session.returns_loadPolicy read loaded (.start setting.files)
  rw [asked] at ready
  rw [Session.perform, asked]
  refine ready.andThen ?_
  cases trigger : Session.triggerOf options with
  | none =>
    rw [trigger] at ran
    exact ran
  | some pair =>
    obtain ⟨event, branch⟩ := pair
    rw [trigger] at ran
    have given := triggerOf_eq_some_iff.mp trigger
    have fires : policy.triggers.fires event branch = true := by
      by_contra still
      exact triggered ⟨event, branch, given.1, given.2, by simpa using still⟩
    dsimp only
    rw [if_pos fires]
    exact ran

theorem exists_account {check : Policy.VendorCheck} {trigger : Option (String × String)}
    (loaded : Policy.load check config = .ok policy) (recordable : Recordable setting)
    (short : policy.Short) :
    ∃ created result after manifest, (setting.origin policy trigger).manifest = .ok created ∧
      Returns ((setting.runner policy).run none) (.start setting.runId (some created)) result after ∧
      Runner.Accounts (setting.origin policy trigger) result after manifest := by
  obtain ⟨created, creation⟩ : ∃ created, (setting.origin policy trigger).manifest = .ok created :=
    Report.Setting.exists_created recordable.started
  have begins : (setting.runner policy).Begins (setting.origin policy trigger)
      (.start setting.runId (some created)) :=
    { given := distinct_origin
      shown := recordable.clock
      oneKind := recordable.oneKind
      answered := recordable.answers
      names := Policy.names_of_load loaded
      ascending := Policy.ascending_of_load loaded
      short
      log := List.forall_mem_nil _ }
  obtain ⟨result, after, manifest, ran, accounts⟩ :=
    Runner.exists_accounts creation rfl rfl begins
  exact ⟨created, result, after, manifest, creation, ran, accounts⟩

theorem call_of_account (parsed : Arguments.parse line = .ok arguments)
    (asked : arguments.command = .ci options)
    (read : Config.load setting.yaml setting.files arguments.config arguments.local_ = .ok config)
    (loaded : Policy.load (setting.checkOf arguments.command) config = .ok policy)
    (triggered : ¬ Untriggered options policy) {created manifest : Manifest} {result : RunResult}
    {after : Progress}
    (creation : (setting.origin policy (Session.triggerOf options)).manifest = .ok created)
    (ran : Returns ((setting.runner policy).run none) (.start setting.runId (some created)) result
      after)
    (accounts : Runner.Accounts (setting.origin policy (Session.triggerOf options)) result
      after manifest)
    {text : String} (written : manifest.write = .ok text) {between files : FileTree}
    (first : Session.Kept setting.files text (Session.given options.manifest) between)
    (second : Session.Kept between
      (Report.resultText (setting.origin policy (Session.triggerOf options)) result)
      (Session.given options.report) files) :
    (call setting line).1 = .finished (Session.exitCodeOf result) ∧
      (call setting line).2.output = Session.linesText (Session.resultLines result) ∧
      (call setting line).2.commands = after.commands ∧ (call setting line).2.files = files := by
  have begun : Session.Kept (Trace.start setting.files).files text
      (Session.given options.manifest) between := first
  obtain ⟨diagnostics, ended⟩ := Session.pipeline_returns creation ran accounts written begun second
  rw [call_of_returns parsed (perform_of_triggered asked read loaded triggered ended)]
  exact ⟨rfl, String.empty_append, rfl, rfl⟩

/-- A call of `ci` whose event and branch do not start the pipeline is over with code 0, and starts
and saves nothing. Every other one runs the pipeline: its code is that of the result, its output
tells the stages and the outcome, and its files are saved. -/
theorem call_gates (parsed : Arguments.parse line = .ok arguments)
    (asked : arguments.command = .ci options)
    (read : Config.load setting.yaml setting.files arguments.config arguments.local_ = .ok config)
    (loaded : Policy.load (setting.checkOf arguments.command) config = .ok policy) :
    (Untriggered options policy →
      (call setting line).1 = .finished 0 ∧ (call setting line).2.commands = [] ∧
        (call setting line).2.files = setting.files) ∧
    (¬ Untriggered options policy → Recordable setting → policy.Short →
      Session.Targets setting.files options →
      ∃ created result after,
        (setting.origin policy (Session.triggerOf options)).manifest = .ok created ∧
        Returns ((setting.runner policy).run none) (.start setting.runId (some created)) result
          after ∧
        (call setting line).2.commands = after.commands ∧
        Concluded setting policy options result (call setting line)) := by
  refine ⟨call_of_untriggered parsed asked read loaded, ?_⟩
  intro triggered recordable short targets
  obtain ⟨created, result, after, manifest, creation, ran, accounts⟩ :=
    exists_account loaded recordable short
  obtain ⟨text, stored, written, restored, retells⟩ := accounts.stored
  obtain ⟨between, files, first, second, kept⟩ := Session.exists_both_kept targets text
    (Report.resultText (setting.origin policy (Session.triggerOf options)) result)
  obtain ⟨code, output, commands, left⟩ :=
    call_of_account parsed asked read loaded triggered creation ran accounts written first second
  refine ⟨created, result, after, creation, ran, commands, ?_, output, ?_, ?_⟩
  · exact ⟨_, code, gates_of_judged accounts.judged⟩
  · intro path wanted
    rw [left]
    exact ⟨text, stored, kept path wanted, restored, retells⟩
  · intro path wanted
    rw [left]
    exact second.find? wanted

end Call

def staged : FileTree :=
  ⟨[(["policy.yaml"], .file ("pipeline:\n  triggers:\n    push: [main]\n" ++
    "  stages:\n    - name: build\n      args: [build]\n"))], ⟨"/", []⟩, fun _ => .all⟩

def stagedPolicy : Value :=
  .ofFields [("pipeline", .ofFields [("triggers", .ofFields [("push", .ofTexts ["main"])]),
    ("stages", .list [.ofFields [("name", .text "build"), ("args", .ofTexts ["build"])]])])]

def answering (response : Response) : Setting :=
  { building with
    files := staged
    yaml := fun _ => .ok stagedPolicy
    world := { building.world with executor := fun _ _ => response } }

theorem staged_accepted : ∃ config policy,
    Config.load (fun _ => .ok stagedPolicy) staged (some "policy.yaml") none = .ok config ∧
    Policy.load (.verified staged staged.current) config = .ok policy ∧
    policy.triggers.fires "push" "dev" = false ∧
    policy.stages = [⟨"build", 0, none, ["build"]⟩] ∧ policy.maxDepth = 32 := by
  have evaluated : (Config.load (fun _ => .ok stagedPolicy) staged (some "policy.yaml")
      none).toOption.map (fun config =>
      (Policy.load (.verified staged staged.current) config).toOption.map fun policy =>
        (policy.triggers.fires "push" "dev", policy.stages, policy.maxDepth)) =
      some (some (false, [⟨"build", 0, none, ["build"]⟩], 32)) := by decide +kernel
  obtain ⟨config, read, evaluated⟩ := Option.map_eq_some_iff.mp evaluated
  obtain ⟨policy, loaded, evaluated⟩ := Option.map_eq_some_iff.mp evaluated
  simp only [Prod.mk.injEq] at evaluated
  exact ⟨config, policy, ok_of_toOption read, ok_of_toOption loaded, evaluated⟩

theorem recordable_answering {response : Response} (storable : response.Storable) :
    Recordable (answering response) :=
  ⟨rfl, fun _ => rfl, fun _ _ => rfl, fun _ _ => storable⟩

theorem short_of_staged {policy : Policy} (stages : policy.stages = [⟨"build", 0, none, ["build"]⟩])
    (depth : policy.maxDepth = 32) : policy.Short := by
  constructor
  · rw [stages]
    exact List.forall_mem_singleton.mpr (by decide)
  · rw [depth]
    decide

def interrupting : Setting := answering (.error (.failure ⟨.cancelled, "interrupted", [], none⟩))

theorem interrupting_gates :
    ((call interrupting ["--config", "policy.yaml", "ci", "--event", "push", "--branch", "dev"]).1 =
        .finished 0 ∧
      (call interrupting ["--config", "policy.yaml", "ci", "--event", "push", "--branch",
        "dev"]).2.commands = [] ∧
      (call interrupting ["--config", "policy.yaml", "ci", "--event", "push", "--branch",
        "dev"]).2.files = staged) ∧
    ∃ policy created result after,
      (interrupting.origin policy none).manifest = .ok created ∧
      Returns ((interrupting.runner policy).run none) (.start "run-1" (some created)) result after ∧
      (call interrupting ["--config", "policy.yaml", "ci", "--manifest", "out/run.json", "--report",
        "out/run.md"]).2.commands = after.commands ∧
      Concluded interrupting policy ⟨none, none, some "out/run.json", some "out/run.md"⟩ result
        (call interrupting ["--config", "policy.yaml", "ci", "--manifest", "out/run.json",
          "--report", "out/run.md"]) := by
  obtain ⟨config, policy, read, loaded, still, stages, depth⟩ := staged_accepted
  have read : Config.load interrupting.yaml interrupting.files (some "policy.yaml") none =
      .ok config := read
  have loaded (options : CiOptions) :
      Policy.load (interrupting.checkOf (.ci options)) config = .ok policy := loaded
  have pushed : Arguments.parse ["--config", "policy.yaml", "ci", "--event", "push", "--branch",
      "dev"] = .ok ⟨some "policy.yaml", none, false, .ci ⟨some "push", some "dev", none, none⟩⟩ := by
    decide +kernel
  have plain : Arguments.parse ["--config", "policy.yaml", "ci", "--manifest", "out/run.json",
      "--report", "out/run.md"] = .ok ⟨some "policy.yaml", none, false,
        .ci ⟨none, none, some "out/run.json", some "out/run.md"⟩⟩ := by decide +kernel
  have storable : Response.Storable (.error (.failure ⟨.cancelled, "interrupted", [], none⟩)) :=
    .failure .empty
  have targets : Session.Targets staged ⟨none, none, some "out/run.json", some "out/run.md"⟩ := by
    refine ⟨?_, ?_, ?_⟩
    · rintro path ⟨⟩
      exact exists_of_isOk (by decide +kernel)
    · rintro path ⟨⟩
      exact exists_of_isOk (by decide +kernel)
    · rintro path other ⟨⟩ ⟨⟩
      exact ⟨by decide +kernel, by decide +kernel, by decide +kernel⟩
  have triggered : ¬ Untriggered ⟨none, none, some "out/run.json", some "out/run.md"⟩ policy := by
    rintro ⟨event, branch, ⟨⟩, -⟩
  have gated := call_gates pushed rfl read (loaded _)
  have ran := call_gates plain rfl read (loaded _)
  refine ⟨gated.1 ⟨"push", "dev", rfl, rfl, still⟩, policy, ?_⟩
  exact ran.2 triggered (recordable_answering storable) (short_of_staged stages depth) targets

def Ending.code? : Ending → Option Int
  | .finished code => some code
  | _ => none

/-- Every command exits with a code that has no text. -/
def exceeding : Setting := answering (.ok ⟨Number.overlong, "", ""⟩)

/-- Two files that can each be saved, but not one after the other; and a run that gives no result. -/
theorem nested_not_saved :
    (∃ config policy,
      Config.load (fun _ => .ok stagedPolicy) staged (some "policy.yaml") none = .ok config ∧
      Policy.load (.verified staged staged.current) config = .ok policy) ∧
    (staged.Writable (Path.ofText "out/run.json") ∧ staged.Writable (Path.ofText "out") ∧
      (call interrupting ["--config", "policy.yaml", "ci", "--manifest", "out/run.json", "--report",
        "out"]).1.code? = none) ∧
    (call exceeding ["--config", "policy.yaml", "ci"]).1.code? = none := by
  obtain ⟨config, policy, read, loaded, -⟩ := staged_accepted
  refine ⟨⟨config, policy, read, loaded⟩, ⟨?_, ?_, ?_⟩, ?_⟩
  · exact exists_of_isOk (by decide +kernel)
  · exact exists_of_isOk (by decide +kernel)
  · decide +kernel
  · decide +kernel

end BuildRules.CommandLine
