import BuildRules.Proofs.CommandLine.Refusal
import BuildRules.Proofs.Run.Account
import BuildRules.Proofs.Workspace.FileTree

namespace BuildRules.CommandLine

def Setting.runner (setting : Setting) (policy : Policy) : Runner :=
  ⟨policy, Session.environmentOf setting policy, some (Session.directory setting), setting.world⟩

def Setting.origin (setting : Setting) (policy : Policy) (trigger : Option (String × String)) :
    Report.Setting where
  runId := setting.runId
  startedAt := setting.started
  version := programVersion
  identity := policy.identity
  environment := some (Session.environmentOf setting policy).vars
  trigger := trigger.map fun pair => [("event", pair.1), ("branch", pair.2)]

section Origin

variable {setting : Setting} {policy : Policy} {trigger : Option (String × String)}

theorem newManifest_eq :
    Session.newManifest setting policy (Session.environmentOf setting policy) trigger =
      (setting.origin policy trigger).manifest := by
  unfold Session.newManifest Report.Setting.manifest Setting.origin
  dsimp only [Report.tableValue, Report.tableOf, Value.ofFields, Record.ofFields]
  rw [List.map_map]
  cases trigger <;> rfl

theorem distinct_origin : (setting.origin policy trigger).Distinct := by
  constructor
  · change ((Session.environmentOf setting policy).vars.map Prod.fst).Nodup
    unfold Environment.vars
    split <;> split <;> simp [Environment.backtraceVariable, Environment.colorVariable]
  · cases trigger with
    | none => exact List.nodup_nil
    | some pair => simp [Report.Setting.triggered, Setting.origin]

end Origin

namespace Session

variable {trace : Trace}

def linesText : List String → String
  | [] => ""
  | line :: rest => line ++ "\n" ++ linesText rest

theorem linesText_append (front back : List String) :
    linesText (front ++ back) = linesText front ++ linesText back := by
  induction front with
  | nil => simp [linesText]
  | cons line rest ih => simp [linesText, ih, String.append_assoc]

theorem print_returns (line : String) (trace : Trace) :
    Returns (print line) trace () { trace with output := trace.output ++ line ++ "\n" } := rfl

theorem printAll_returns {α : Type} (shown : α → String) (items : List α) (trace : Trace) :
    Returns (forIn items PUnit.unit fun item _ => do
      print (shown item)
      pure (ForInStep.yield PUnit.unit)) trace PUnit.unit
      { trace with output := trace.output ++ linesText (items.map shown) } := by
  induction items generalizing trace with
  | nil =>
    rw [List.map_nil, linesText, String.append_empty]
    exact .done _ _
  | cons item rest ih =>
    have remaining := ih { trace with output := trace.output ++ shown item ++ "\n" }
    rw [List.forIn_cons, List.map_cons, linesText, ← String.append_assoc, ← String.append_assoc]
    exact .andThen (.andThen (print_returns (shown item) trace) (.done _ _)) remaining

theorem save_returns {ε : Type} {wrap : ε → Interrupt} {outcome : Except ε String}
    {path text : String} {files : FileTree} (written : outcome = .ok text)
    (saved : trace.files.save (Path.ofText path) text = .ok files) :
    Returns (do makeParent path; let text ← raise wrap outcome; write path text) trace ()
      { trace with files } := by
  obtain ⟨made, ran, stored⟩ := bind_eq_ok.mp saved
  have parent : Returns (makeParent path) trace () { trace with files := made } :=
    .andThen (.read _) (.andThen (.lift (by rw [ran]; rfl) _) (.write _ _))
  refine parent.andThen (.andThen (.lift (by rw [written]; rfl) _) ?_)
  exact .andThen (.read _) (.andThen (.lift (by dsimp only; rw [stored]; rfl) _) (.write _ _))

theorem tells_raise {ε α : Type} {wrap : ε → Interrupt} {outcome : Except ε α} {value : α}
    (ok : outcome = .ok value) : Tells (raise wrap outcome) value :=
  fun _ => ⟨_, .lift (by rw [ok]; rfl) _⟩

theorem tells_warnFailure (stage : StageOutcome) : Tells (warnFailure stage) () := by
  unfold warnFailure
  dsimp only
  cases stage.error with
  | none =>
    split
    · exact (Tells.warn _).andThen (.done ())
    · exact .done ()
  | some payload =>
    have reason : Tells (do warn ("error: " ++ payload.message); warnHint payload.hint) () :=
      (Tells.warn _).andThen (.warnHint payload.hint)
    split
    · exact (Tells.warn _).andThen reason
    · exact reason

theorem exists_eventLine {event : LogEvent} (storable : (Value.map event.extra).Storable) :
    ∃ line, eventLine event = .ok line := by
  obtain ⟨document, made, -⟩ :=
    Json.ofValue_of_rearranged storable.plain storable.plain storable.written (.refl _)
  unfold eventLine
  split
  · exact ⟨_, rfl⟩
  · rw [Json.write, made]
    exact ⟨_, rfl⟩

theorem tells_warnEvents {log : RunLog} (storable : log.Storable) :
    Tells (warnEvents log) () := by
  have all (events : List LogEvent) (each : ∀ event ∈ events, (Value.map event.extra).Storable) :
      Tells (forIn events PUnit.unit fun event _ => do
        warn (← raise (fun fault => .manifest (.shape fault)) (eventLine event))
        pure (ForInStep.yield PUnit.unit)) PUnit.unit := by
    induction events with
    | nil => exact .done _
    | cons event rest ih =>
      obtain ⟨first, each⟩ := List.forall_mem_cons.mp each
      obtain ⟨line, shown⟩ := exists_eventLine first
      rw [List.forIn_cons]
      refine .andThen ((tells_raise shown).andThen (.andThen (.warn line) (.done _))) ?_
      exact ih each
  unfold warnEvents
  exact (all log.events storable).andThen (.done ())

theorem runPipeline_returns {setting : Setting} {policy : Policy} {created manifest : Manifest}
    {result : RunResult} {after : Progress}
    (ran : Returns ((setting.runner policy).run none) (.start setting.runId (some created)) result
      after) (held : after.manifest = some manifest) (trace : Trace) :
    Returns (runPipeline setting policy (environmentOf setting policy) created) trace
      (result, after.log, manifest) { trace with commands := trace.commands ++ after.commands } := by
  unfold Returns Setting.runner at ran
  unfold runPipeline
  dsimp only
  rw [ran]
  refine .andThen (.change _ _) (.andThen (.lift rfl _) ?_)
  rw [held]
  exact .done _ _

section Saving

variable {files after : FileTree} {text : String} {target : Option String}

/-- Files before and after a text was saved where a path was given. -/
inductive Kept (files : FileTree) (text : String) : Option String → FileTree → Prop
  | absent : Kept files text none files
  | saved {path : String} {after : FileTree}
      (ran : files.save (Path.ofText path) text = .ok after) : Kept files text (some path) after

theorem exists_kept (writable : ∀ path, target = some path → files.Writable (Path.ofText path))
    (text : String) : ∃ after, Kept files text target after := by
  cases target with
  | none => exact ⟨files, .absent⟩
  | some path =>
    obtain ⟨after, ran⟩ := FileTree.save_of_writable (writable path rfl) text
    exact ⟨after, .saved ran⟩

theorem Kept.find? (kept : Kept files text target after) {path : String}
    (asked : target = some path) : after.find? (Path.ofText path) = some (.file text) := by
  cases kept with
  | absent => cases asked
  | saved ran =>
    cases asked
    exact FileTree.find?_of_save ran

theorem Kept.current (kept : Kept files text target after) : after.current = files.current := by
  cases kept with
  | absent => rfl
  | saved ran => exact (FileTree.saved_of_save ran).current

/-- Where the files of a call can be saved: each path that is given can be written, the two lead to
different places, and neither is on the way to the other. -/
structure Targets (files : FileTree) (options : CiOptions) : Prop where
  manifest : ∀ path, given options.manifest = some path → files.Writable (Path.ofText path)
  report : ∀ path, given options.report = some path → files.Writable (Path.ofText path)
  apart : ∀ path other, given options.manifest = some path → given options.report = some other →
    files.Apart (Path.ofText path) (Path.ofText other)

/-- Both files can be saved one after the other, and the first is still there after the second. -/
theorem exists_both_kept {options : CiOptions} (targets : Targets files options)
    (manifest report : String) :
    ∃ between after, Kept files manifest (given options.manifest) between ∧
      Kept between report (given options.report) after ∧
      ∀ path, given options.manifest = some path →
        after.find? (Path.ofText path) = some (.file manifest) := by
  obtain ⟨between, first⟩ := exists_kept targets.manifest manifest
  have writable : ∀ path, given options.report = some path →
      between.Writable (Path.ofText path) := by
    intro other asked
    have writable := targets.report other asked
    generalize wanted : given options.manifest = target at first
    cases first with
    | absent => exact writable
    | saved ran => exact FileTree.writable_of_save (targets.apart _ _ wanted asked) writable ran
  obtain ⟨after, second⟩ := exists_kept writable report
  refine ⟨between, after, first, second, ?_⟩
  intro path asked
  have found := first.find? asked
  generalize wanted : given options.report = target at second
  cases second with
  | absent => exact found
  | saved ran =>
    -- the place of a path depends on where the tree is looked at from, which saving keeps
    have apart := (targets.apart _ _ asked wanted).places
    rw [← first.current] at apart
    exact FileTree.find?_of_save_elsewhere apart ran found

end Saving

theorem keep_returns {files : FileTree} {text : String} {target : Option String}
    {save : String → Session Unit} (kept : Kept trace.files text target files)
    (saves : ∀ path after, trace.files.save (Path.ofText path) text = .ok after →
      Returns (save path) trace () { trace with files := after }) :
    Returns (target.forM save) trace () { trace with files } := by
  cases kept with
  | absent => exact .done _ _
  | saved ran => exact saves _ _ ran

theorem saveManifest_returns {manifest : Manifest} {text path : String} {after : FileTree}
    (written : manifest.write = .ok text)
    (ran : trace.files.save (Path.ofText path) text = .ok after) :
    Returns (saveManifest manifest path) trace () { trace with files := after } :=
  save_returns written ran

theorem saveReport_returns {manifest : Manifest} {text path : String} {after : FileTree}
    (written : Report.generate manifest.toValue = .ok text)
    (ran : trace.files.save (Path.ofText path) text = .ok after) :
    Returns (saveReport manifest path) trace () { trace with files := after } :=
  save_returns written ran

/-- What is printed of a result: a line for each stage, and the outcome. -/
def resultLines (result : RunResult) : List String :=
  result.stages.map (fun stage => stage.name ++ ": " ++ stage.status.name) ++
    [result.outcome.shown]

theorem printResult_returns {result : RunResult} (told : Runner.Told result.outcome)
    (trace : Trace) :
    Returns (printResult result) trace ()
      { trace with output := trace.output ++ linesText (resultLines result) } := by
  have listed := printAll_returns (fun stage => stage.name ++ ": " ++ stage.status.name)
    result.stages trace
  have outcome : result.outcome.display.mapError (fun fault => Interrupt.run (.text fault)) =
      .ok result.outcome.shown := by
    rw [told]
    rfl
  have last := print_returns result.outcome.shown
    { trace with output := trace.output ++ linesText (result.stages.map fun stage =>
      stage.name ++ ": " ++ stage.status.name) }
  have shown : trace.output ++ linesText (resultLines result) =
      trace.output ++ linesText (result.stages.map fun stage =>
        stage.name ++ ": " ++ stage.status.name) ++ result.outcome.shown ++ "\n" := by
    simp [resultLines, linesText_append, linesText, String.append_assoc]
  rw [shown]
  exact listed.andThen (.andThen (.lift outcome _) last)

section Pipeline

variable {setting : Setting} {arguments : Arguments} {options : CiOptions}
  {policy : Policy} {trigger : Option (String × String)} {created manifest : Manifest}
  {result : RunResult} {after : Progress}

/-- Whatever is told at the end, the result gives the code. -/
theorem pipeline_returns (creation : (setting.origin policy trigger).manifest = .ok created)
    (ran : Returns ((setting.runner policy).run none) (.start setting.runId (some created)) result
      after)
    (accounts : Runner.Accounts (setting.origin policy trigger) result after manifest)
    {text : String} (written : manifest.write = .ok text) {between files : FileTree}
    (first : Kept trace.files text (given options.manifest) between)
    (second : Kept between (Report.resultText (setting.origin policy trigger) result)
      (given options.report) files) :
    ∃ diagnostics, Returns (pipeline setting arguments options policy trigger) trace
      (exitCodeOf result)
      { output := trace.output ++ linesText (resultLines result)
        diagnostics
        commands := trace.commands ++ after.commands
        captures := trace.captures ++ [true]
        files } := by
  -- what follows the files only adds to the diagnostics, whatever the log and the failure hold
  have told : Tells (do
      if arguments.verbose then warnEvents after.log
      result.failedStage?.forM warnFailure
      return exitCodeOf result) (exitCodeOf result) := by
    have blamed : Tells (result.failedStage?.forM warnFailure) () := by
      cases result.failedStage? with
      | none => exact .done ()
      | some stage => exact tells_warnFailure stage
    split
    · exact (tells_warnEvents accounts.log).andThen (blamed.andThen (.done _))
    · exact blamed.andThen (.done _)
  have made : newManifest setting policy (environmentOf setting policy) trigger = .ok created := by
    rw [newManifest_eq, creation]
  have create : Returns (raise .manifest
      (newManifest setting policy (environmentOf setting policy) trigger)) trace created trace :=
    .lift (by rw [made]; rfl) _
  obtain ⟨diagnostics, ended⟩ := told
    { output := trace.output ++ linesText (resultLines result)
      diagnostics := trace.diagnostics
      commands := trace.commands ++ after.commands
      captures := trace.captures ++ [true]
      files }
  refine ⟨diagnostics, create.andThen (.andThen (.change _ _) ?_)⟩
  refine (runPipeline_returns ran accounts.held _).andThen ?_
  refine (printResult_returns accounts.judged.reasoned.told _).andThen ?_
  refine .andThen (keep_returns first fun path after saved => saveManifest_returns written saved) ?_
  refine .andThen (keep_returns second fun path after saved => ?_) ended
  exact saveReport_returns accounts.reported saved

end Pipeline

end Session

end BuildRules.CommandLine
