import BuildRules.Proofs.Run.Inert
import BuildRules.Proofs.Run.Once

/-! Stages that are given to a run are run in the order of their ordinals, however they are given.
What is logged, and when, is nothing to the run. -/
namespace BuildRules

/-- Two runs that only their logs tell apart. -/
structure Progress.SameButLog (progress other : Progress) : Prop where
  state : progress.state = other.state
  current : progress.current = other.current
  manifest : progress.manifest = other.manifest
  commands : progress.commands = other.commands
  readings : progress.readings = other.readings

theorem Progress.SameButLog.exists_log {progress other : Progress}
    (same : progress.SameButLog other) : ∃ log, other = { progress with log } := by
  obtain ⟨state, current, log, manifest, commands, readings⟩ := other
  refine ⟨log, ?_⟩
  rw [same.state, same.current, same.manifest, same.commands, same.readings]

namespace Runner

variable {runner : Runner} {α β : Type}

def timed (runner : Runner) (times : Nat → Timestamp) : Runner :=
  { runner with world := { runner.world with logTime := times } }

structure SameEnd (ended other : Except RunError α × Progress) : Prop where
  outcome : ended.1 = other.1
  progress : ended.2.SameButLog other.2

/-- The actions end alike wherever they begin alike. -/
def Abreast (action twin : Running α) : Prop :=
  ∀ before other, before.SameButLog other →
    SameEnd (action.run.run before) (twin.run.run other)

namespace Abreast

theorem of_returns {action twin : Running α} {value otherValue : Progress → α}
    {change otherChange : Progress → Progress}
    (ran : ∀ before, Returns action before (value before) (change before))
    (otherRan : ∀ other, Returns twin other (otherValue other) (otherChange other))
    (same : ∀ before other, before.SameButLog other → value before = otherValue other ∧
      (change before).SameButLog (otherChange other)) : Abreast action twin := by
  intro before other begun
  obtain ⟨values, changes⟩ := same before other begun
  rw [ran before, otherRan other, values]
  exact ⟨rfl, changes⟩

theorem done (value : α) : Abreast (pure value : Running α) (pure value) :=
  of_returns (.done value) (.done value) fun _ _ begun => ⟨rfl, begun⟩

theorem andThen {action twin : Running α} {next nextTwin : α → Running β}
    (first : Abreast action twin) (rest : ∀ value, Abreast (next value) (nextTwin value)) :
    Abreast (action >>= next) (twin >>= nextTwin) := by
  intro before other begun
  have ended := first before other begun
  cases ran : action.run.run before with
  | mk outcome middle =>
  cases otherRan : twin.run.run other with
  | mk otherOutcome otherMiddle =>
  rw [ran, otherRan] at ended
  obtain ⟨outcomes, going⟩ := ended
  dsimp only at outcomes going
  subst outcomes
  cases outcome with
  | error fault =>
    have stopped : Stops (action >>= next) before fault middle := .andThen ran
    have otherStopped : Stops (twin >>= nextTwin) other fault otherMiddle := .andThen otherRan
    rw [stopped, otherStopped]
    exact ⟨rfl, going⟩
  | ok value =>
    rw [Returns.run_bind ran, Returns.run_bind otherRan]
    exact rest value middle otherMiddle going

theorem lift (outcome : Except RunError α) :
    Abreast (liftM outcome : Running α) (liftM outcome) := by
  intro before other begun
  cases outcome with
  | error fault => exact ⟨rfl, begun⟩
  | ok value => exact ⟨rfl, begun⟩

theorem reading {next nextTwin : Progress → Running α}
    (rest : ∀ before other, before.SameButLog other →
      SameEnd ((next before).run.run before) ((nextTwin other).run.run other)) :
    Abreast (get >>= next) (get >>= nextTwin) := by
  intro before other begun
  rw [(Returns.read before).run_bind, (Returns.read other).run_bind]
  exact rest before other begun

end Abreast

section Pieces

variable (runner : Runner) (times : Nat → Timestamp)

theorem abreast_transition (state : RunState) (current : Option Nat) :
    Abreast (runner.transition state current) ((runner.timed times).transition state current) :=
  .of_returns (fun before => transition_returns runner before state current)
    (fun other => transition_returns _ other state current)
    fun _ _ begun => ⟨rfl, { begun with state := rfl, current := rfl }⟩

/-- Recordings read the manifest and nothing else, and fail by it alone. -/
theorem abreast_record (recording : Manifest.Recording Unit) :
    Abreast (record recording) (record recording) := by
  refine .reading ?_
  intro before other begun
  obtain ⟨log, rfl⟩ := begun.exists_log
  obtain ⟨state, current, first, manifest, commands, readings⟩ := before
  cases manifest with
  | none => exact ⟨rfl, begun⟩
  | some manifest =>
    dsimp only
    cases recording.run.run manifest with
    | mk result changed =>
      rw [(Returns.write _ _).run_bind, (Returns.write _ _).run_bind]
      cases result with
      | ok => exact ⟨rfl, { begun with manifest := rfl }⟩
      | error fault => exact ⟨rfl, { begun with manifest := rfl }⟩

theorem abreast_readClock : Abreast runner.readClock (runner.timed times).readClock := by
  refine .of_returns (readClock_returns runner) (readClock_returns _) ?_
  intro before other begun
  refine ⟨congrArg runner.world.clock begun.readings, { begun with readings := ?_ }⟩
  exact congrArg (· + 1) begun.readings

theorem abreast_log (stage level message : String) (extra : Record) :
    Abreast (runner.log stage level message extra)
      ((runner.timed times).log stage level message extra) :=
  .of_returns (fun before => log_returns runner before stage level message extra)
    (fun other => log_returns _ other stage level message extra)
    fun _ _ begun => ⟨rfl, { begun with }⟩

theorem abreast_start (command : Command) :
    Abreast (runner.start command) ((runner.timed times).start command) := by
  refine .of_returns (fun before => start_returns runner before command)
    (fun other => start_returns _ other command) ?_
  intro before other begun
  refine ⟨?_, { begun with commands := congrArg (· ++ [command]) begun.commands }⟩
  rw [begun.commands]
  rfl

theorem abreast_warnAll (stage : String) (messages : List String) :
    Abreast
      (forIn messages PUnit.unit fun message _ => do
        runner.warn stage message
        pure (ForInStep.yield PUnit.unit))
      (forIn messages PUnit.unit fun message _ => do
        (runner.timed times).warn stage message
        pure (ForInStep.yield PUnit.unit)) :=
  .of_returns (fun before => warnAll_returns runner before stage id messages)
    (fun other => warnAll_returns (runner.timed times) other stage id messages)
    fun _ _ begun => ⟨rfl, { begun with }⟩

theorem abreast_recordFailure (outcome : StageOutcome) (time : Timestamp) :
    Abreast (recordFailure outcome time) (recordFailure outcome time) := by
  rw [recordFailure]
  split
  · exact .done ()
  · exact abreast_record _

theorem abreast_conclude (stage : Stage) (arguments : List String) (started finished : Timestamp)
    (response : Response) :
    Abreast (runner.conclude stage arguments started finished response)
      ((runner.timed times).conclude stage arguments started finished response) := by
  cases response with
  | error interruption =>
    refine (Abreast.lift _).andThen fun milliseconds => ?_
    refine (Abreast.lift _).andThen fun payload => ?_
    exact (abreast_recordFailure _ _).andThen fun _ => .done _
  | ok result =>
    refine (abreast_warnAll runner times _ _).andThen fun _ => ?_
    refine (Abreast.lift _).andThen fun error => ?_
    refine (Abreast.lift _).andThen fun milliseconds => ?_
    cases error with
    | none =>
      refine (abreast_log runner times _ _ _ _).andThen fun _ => ?_
      exact (abreast_record _).andThen fun _ => .done _
    | some payload => exact (abreast_recordFailure _ _).andThen fun _ => .done _

theorem abreast_runStage (stage : Stage) (command : Command) :
    Abreast (runner.runStage stage command) ((runner.timed times).runStage stage command) := by
  refine (abreast_readClock runner times).andThen fun started => ?_
  refine (abreast_log runner times _ _ _ _).andThen fun _ => ?_
  refine (abreast_record _).andThen fun _ => ?_
  refine (abreast_start runner times command).andThen fun response => ?_
  refine (abreast_readClock runner times).andThen fun finished => ?_
  exact abreast_conclude runner times _ _ _ _ _

theorem abreast_finish (outcome : RunOutcome) (stages : List StageOutcome) :
    Abreast (runner.finish outcome stages) ((runner.timed times).finish outcome stages) := by
  have logged : Abreast
      (do
        let shown ← liftM (outcome.display.mapError RunError.text)
        runner.log "pipeline" (if outcome.ok then "INFO" else "ERROR") shown
        return ⟨outcome, (← get).state, stages⟩)
      (do
        let shown ← liftM (outcome.display.mapError RunError.text)
        (runner.timed times).log "pipeline" (if outcome.ok then "INFO" else "ERROR") shown
        return (⟨outcome, (← get).state, stages⟩ : RunResult)) := by
    refine (Abreast.lift _).andThen fun shown => ?_
    refine (abreast_log runner times _ _ _ _).andThen fun _ => .reading ?_
    intro before other begun
    rw [begun.state]
    exact ⟨rfl, begun⟩
  refine .reading ?_
  intro before other begun
  rw [← begun.manifest]
  by_cases present : before.manifest.isSome
  · rw [if_pos present, if_pos present]
    refine (abreast_readClock runner times).andThen (fun time => ?_) before other begun
    exact (abreast_record _).andThen fun _ => logged
  · rw [if_neg present, if_neg present]
    exact logged before other begun

theorem abreast_runFrom (index : Nat) (done : List StageOutcome)
    (pending : List (Stage × Command)) :
    Abreast (runner.runFrom index done pending)
      ((runner.timed times).runFrom index done pending) := by
  induction pending generalizing index done with
  | nil =>
    exact (abreast_transition runner times _ _).andThen fun _ => abreast_finish runner times _ _
  | cons entry rest ih =>
    obtain ⟨stage, command⟩ := entry
    refine (abreast_transition runner times _ _).andThen fun _ => ?_
    refine (abreast_runStage runner times stage command).andThen fun outcome => ?_
    dsimp only
    split
    · exact ih _ _
    · exact (abreast_transition runner times _ _).andThen fun _ => abreast_finish runner times _ _

theorem abreast_failUnresolved (index : Nat) (stage : Stage) (error : ResolutionError) :
    Abreast (runner.failUnresolved index stage error)
      ((runner.timed times).failUnresolved index stage error) := by
  refine (abreast_transition runner times _ _).andThen fun _ => ?_
  refine (abreast_readClock runner times).andThen fun time => ?_
  refine (abreast_recordFailure _ time).andThen fun _ => ?_
  exact abreast_finish runner times _ _

theorem prepare_timed (stages : List Stage) :
    (runner.timed times).prepare stages = runner.prepare stages := by
  induction stages with
  | nil => rfl
  | cons stage rest ih =>
    rw [prepare, prepare, ih]
    rfl

theorem abreast_proceed (ordered : List Stage) :
    Abreast (runner.proceed ordered) ((runner.timed times).proceed ordered) := by
  rw [proceed, proceed, prepare_timed]
  split
  split
  · exact abreast_failUnresolved runner times _ _ _
  · exact abreast_runFrom runner times _ _ _

end Pieces

/-- Runs of the same stages in order end alike, whatever they log. -/
theorem run_ends_alike {before other : Progress} (begun : before.SameButLog other)
    (fresh : before.state = .pending) (times : Nat → Timestamp)
    {requested otherRequested : Option (List Stage)} {ordered : List Stage}
    (orders : runner.Orders requested ordered)
    (otherOrders : (runner.timed times).Orders otherRequested ordered) :
    SameEnd ((runner.run requested).run.run before)
      (((runner.timed times).run otherRequested).run.run other) := by
  rw [run_proceeds fresh orders, run_proceeds (begun.state ▸ fresh) otherOrders]
  exact abreast_proceed runner times ordered _ _ { begun with }

/-- Calls with the same stages in two orders: both are refused before anything is done, or both
run and end alike, with a result where nothing keeps the run from one. -/
inductive InAnyOrder (runner : Runner) (stages : List Stage) (before other : Progress) :
    Except RunError RunResult × Progress → Except RunError RunResult × Progress → Prop
  | refused {error otherError : PolicyError} (repeated : ¬ Stage.Distinct stages)
      (cause : Stage.Refused stages error) (otherCause : Stage.Refused stages otherError) :
      InAnyOrder runner stages before other (.error (.plan error), before)
        (.error (.plan otherError), other)
  | executed {ended otherEnded : Except RunError RunResult × Progress}
      (distinct : Stage.Distinct stages) (alike : SameEnd ended otherEnded)
      (past : Over ended.1 ended.2)
      (returns : (∃ result, ended.1 = .ok result) ↔ runner.Unhindered (some stages) before) :
      InAnyOrder runner stages before other ended otherEnded

theorem InAnyOrder.alike {stages : List Stage} {before other : Progress}
    {ended otherEnded : Except RunError RunResult × Progress}
    (called : runner.InAnyOrder stages before other ended otherEnded)
    (distinct : Stage.Distinct stages) : SameEnd ended otherEnded := by
  cases called with
  | refused repeated => exact absurd distinct repeated
  | executed _ alike => exact alike

/-- The order in which stages are given is nothing to a run. Two fresh runners that differ in the
times and in the id of their logs are both refused stages that repeat a name or an ordinal;
otherwise they start the same commands, end with the same result in the same state and leave the
same manifest. Planning gives the one ascending arrangement of distinct stages, so the stages of a
loaded policy run in any order as they do when none are given. -/
theorem run_in_any_order (runner : Runner) {stages others : List Stage}
    (same : others.Perm stages) (id otherId : String) (times : Nat → Timestamp)
    (manifest : Option Manifest) :
    Stage.Arranges stages ∧
    runner.InAnyOrder stages (.start id manifest) (.start otherId manifest)
      ((runner.run (some stages)).run.run (.start id manifest))
      (((runner.timed times).run (some others)).run.run (.start otherId manifest)) ∧
    ∀ check config, Policy.load check config = .ok runner.policy →
      stages.Perm runner.policy.stages →
      SameEnd ((runner.run (some stages)).run.run (.start id manifest))
        (((runner.timed times).run none).run.run (.start otherId manifest)) := by
  have begun : (Progress.start id manifest).SameButLog (.start otherId manifest) :=
    ⟨rfl, rfl, rfl, rfl, rfl⟩
  have fresh : (Progress.start id manifest).state = .pending := rfl
  refine ⟨Stage.arranges stages, ?_, ?_⟩
  · by_cases distinct : Stage.Distinct stages
    · obtain ⟨ordered, planned, -⟩ := planStages_of_distinct distinct
      have asked : ∀ given, some stages = some given → Stage.Distinct given := by
        intro given asked
        cases asked
        exact distinct
      obtain ⟨past, returns⟩ := run_over runner fresh asked
      exact .executed distinct
        (run_ends_alike begun fresh times planned (planStages_of_perm planned same)) past returns
    · obtain ⟨error, unplanned, cause⟩ := exists_refusal distinct
      obtain ⟨otherError, otherUnplanned, otherCause⟩ :=
        exists_refusal fun other => distinct (other.of_perm same.symm)
      rw [run_of_unplanned fresh unplanned, run_of_unplanned rfl otherUnplanned]
      exact .refused distinct cause (otherCause.of_perm same)
  · intro check config loaded permuted
    exact run_ends_alike begun fresh times
      (planStages_of_perm (Policy.stages_planned_of_load loaded) permuted) rfl

theorem buildTest_in_any_order : buildTest.reverse.Perm buildTest ∧ Stage.Distinct buildTest ∧
    SameEnd
      ((firstOnly.run (some buildTest)).run.run (.start "run-1" (some ⟨[], [], [], [], []⟩)))
      (((firstOnly.timed fun _ => .dawn false (some 0)).run (some buildTest.reverse)).run.run
        (.start "run-2" (some ⟨[], [], [], [], []⟩))) := by
  have distinct : Stage.Distinct buildTest := ⟨by decide, by decide⟩
  obtain ⟨-, called, -⟩ := run_in_any_order firstOnly buildTest.reverse_perm "run-1" "run-2"
    (fun _ => .dawn false (some 0)) (some ⟨[], [], [], [], []⟩)
  exact ⟨buildTest.reverse_perm, distinct, called.alike distinct⟩

/-- Two stages of one ordinal, too long for a text. -/
def crowded : List Stage :=
  [⟨"build", Number.overlong, none, ["build"]⟩, ⟨"test", Number.overlong, none, ["test"]⟩]

/-- Where no text names the ordinal, stages are refused, but not as duplicates. -/
theorem crowded_unnamed : (firstOnly.run (some crowded)).run.run (.start "run-1" none) =
    (.error (.plan (.shape .integerTooLong)), .start "run-1" none) := by
  have unnamed (name : String) :
      (ConfigError.stageOrdinalDuplicate Number.overlong name).message = .error .integerTooLong := by
    rw [ConfigError.message, Number.display_overlong]
    rfl
  refine run_of_unplanned rfl ?_
  simp [crowded, planStages, StageRegistry.ofList, StageRegistry.empty, StageRegistry.add,
    PolicyError.raised, unnamed, bind, Except.bind]

end Runner
end BuildRules
