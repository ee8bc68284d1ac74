import BuildRules.Proofs.Run.Course

namespace BuildRules.Runner

variable {runner : Runner} {before after : Progress} {steps : List Step}

/-- Nothing keeps a run of these steps from its result. -/
structure Passable (runner : Runner) (before : Progress) (steps : List Step) : Prop where
  clear : ∀ step ∈ steps, step.Clear runner before.manifest.isSome
  closes : before.manifest.isSome = true →
    (runner.world.clock (before.readings + 2 * steps.length)).utc?.isSome

/-- What breaks off a run of these steps, and the commands that it has started by then. -/
inductive Obstructed (runner : Runner) (before : Progress) (steps : List Step) :
    RunError → List Command → Prop
  | step {error : RunError} {front back : List Step} {last : Step}
      (split : steps = front ++ last :: back)
      (clear : ∀ step ∈ front, step.Clear runner before.manifest.isSome)
      (obstacle : last.Obstacle runner before.manifest.isSome error) :
      Obstructed runner before steps error
        ((front ++ last.called before.manifest.isSome).map Step.command)
  | closing (clear : ∀ step ∈ steps, step.Clear runner before.manifest.isSome)
      (held : before.manifest.isSome = true)
      (hidden : (runner.world.clock (before.readings + 2 * steps.length)).utc? = none) :
      Obstructed runner before steps (.recording .outsideCalendar) (steps.map Step.command)

theorem Obstructed.not_passable {error : RunError} {calls : List Command}
    (obstructed : runner.Obstructed before steps error calls) : ¬ runner.Passable before steps := by
  intro passable
  cases obstructed with
  | step split _ obstacle =>
    subst split
    exact Step.clear_iff.mp (passable.clear _ (by simp)) _ obstacle
  | closing _ held hidden =>
    have shown := passable.closes held
    rw [hidden] at shown
    cases shown

/-- A step that is clear ahead of the others. -/
theorem Obstructed.cons {step : Step} {later : Progress} {error : RunError}
    {calls : List Command} (obstructed : runner.Obstructed later steps error calls)
    (clear : step.Clear runner before.manifest.isSome)
    (kept : later.manifest.isSome = before.manifest.isSome)
    (readings : later.readings = before.readings + 2) :
    runner.Obstructed before (step :: steps) error (step.command :: calls) := by
  cases obstructed with
  | @step _ front back last split clears obstacle =>
    rw [kept] at clears obstacle ⊢
    subst split
    have whole : step :: (front ++ last :: back) = (step :: front) ++ last :: back := rfl
    exact .step whole (List.forall_mem_cons.mpr ⟨clear, clears⟩) obstacle
  | closing clears held hidden =>
    rw [kept] at clears held
    refine .closing (List.forall_mem_cons.mpr ⟨clear, clears⟩) held ?_
    rw [← hidden, readings, List.length_cons]
    congr 2
    omega

theorem Passable.cons {step : Step} {later : Progress} (passable : runner.Passable later steps)
    (clear : step.Clear runner before.manifest.isSome)
    (kept : later.manifest.isSome = before.manifest.isSome)
    (readings : later.readings = before.readings + 2) :
    runner.Passable before (step :: steps) := by
  obtain ⟨clears, closes⟩ := passable
  rw [kept] at clears closes
  refine ⟨List.forall_mem_cons.mpr ⟨clear, clears⟩, ?_⟩
  intro held
  have shown := closes held
  rw [readings] at shown
  rwa [List.length_cons, Nat.mul_add, Nat.add_comm (2 * _), ← Nat.add_assoc]

/-- A manifest takes all times of the steps of such a run. -/
theorem Passable.times (passable : runner.Passable before steps)
    (held : before.manifest.isSome = true) :
    ∀ step ∈ steps, step.started.utc?.isSome ∧ step.finished.utc?.isSome :=
  fun step member =>
    ⟨(passable.clear step member).begins held, (passable.clear step member).ends held⟩

theorem Passable.of_warned (passable : runner.Passable (runner.warned before) steps) :
    runner.Passable before steps := ⟨passable.clear, passable.closes⟩

theorem Obstructed.of_warned {error : RunError} {calls : List Command}
    (obstructed : runner.Obstructed (runner.warned before) steps error calls) :
    runner.Obstructed before steps error calls := by
  cases obstructed with
  | step split clear obstacle => exact .step split clear obstacle
  | closing clear held hidden => exact .closing clear held hidden

/-- A run that was broken off on its way from one progress to another. -/
structure BrokenOff (before last after : Progress) : Prop where
  left : after.state ≠ .pending
  begins : before.log.Grows after.log
  goes : after.log.Grows last.log

/-- The warnings that a run begins with are part of what is logged on the way. -/
theorem BrokenOff.of_warned {last : Progress}
    (broken : BrokenOff (runner.warned before) last after) : BrokenOff before last after :=
  ⟨broken.left, (grows_warned runner before).trans broken.begins, broken.goes⟩

/-- An outcome that is logged has a text. -/
def Told (outcome : RunOutcome) : Prop := outcome.display = .ok outcome.shown

theorem recordOutcome_returns {outcome : RunOutcome} {time : Timestamp}
    (shown : before.manifest.isSome → time.utc?.isSome) :
    Returns (record (Manifest.recordOutcome time (.ofFields (outcomeFields outcome)))) before ()
      { before with
        manifest := before.manifest.map fun manifest =>
          manifest.withOutcome time (outcomeFields outcome) } := by
  refine record_returns ?_
  intro manifest present
  exact Manifest.recordOutcome_returns (shown (Option.isSome_of_eq_some present)) _

theorem finish_ends {outcome : RunOutcome} (told : Told outcome) (before : Progress)
    (stages : List StageOutcome) :
    Ends (runner.finish outcome stages) before fun ended after =>
      ((before.manifest.isSome = true → (runner.world.clock before.readings).utc?.isSome) ∧
        ended = .ok ⟨outcome, before.state, stages⟩ ∧ after = runner.closed outcome before) ∨
      before.manifest.isSome = true ∧ (runner.world.clock before.readings).utc? = none ∧
        ended = .error (.recording .outsideCalendar) ∧
        ∃ manifest readings, after = { before with manifest, readings } := by
  obtain ⟨state, current, log, manifest, calls, readings⟩ := before
  have shown : outcome.display.mapError RunError.text = .ok outcome.shown := by rw [told]; rfl
  refine .following (.read _) ?_
  cases manifest with
  | none =>
    refine .following (.lift shown _) ?_
    refine .following (log_returns _ _ _ _ _ _) ?_
    exact .of_returns (.andThen (.read _) (.done _ _)) (.inl ⟨nofun, rfl, rfl⟩)
  | some manifest =>
    refine .following (readClock_returns _ _) ?_
    cases time : (runner.world.clock readings).utc? with
    | none =>
      exact .of_stops (.andThen (record_stops rfl (Manifest.recordOutcome_stops time _)))
        (.inr ⟨rfl, rfl, rfl, _, _, rfl⟩)
    | some utc =>
      refine .following (recordOutcome_returns fun _ => Option.isSome_of_eq_some time) ?_
      refine .following (.lift shown _) ?_
      refine .following (log_returns _ _ _ _ _ _) ?_
      exact .of_returns (.andThen (.read _) (.done _ _)) (.inl ⟨fun _ => rfl, rfl, rfl⟩)

/-- An outcome that says why a run has failed, if it has. -/
def Reasoned : RunOutcome → Prop
  | .succeeded => True
  | .failed _ info => ∃ reason, Record.get? info "reason" = some (.text reason)

theorem Reasoned.told {outcome : RunOutcome} (reasoned : Reasoned outcome) : Told outcome := by
  cases outcome with
  | succeeded => rfl
  | failed stage info =>
    obtain ⟨reason, given⟩ := reasoned
    have shown : (RunOutcome.failed stage info).display =
        .ok ("Failed(" ++ Text.quoted stage ++ ", " ++ reason ++ ")") := by
      rw [RunOutcome.display, given]
      rfl
    rw [Told, RunOutcome.shown, shown]
    rfl

theorem reasoned_exitInfo (stage : String) (outcome : StageOutcome) :
    Reasoned (.failed stage (exitInfo outcome)) := by simp [Reasoned, exitInfo]

theorem reasoned_unresolved (stage : Stage) (error : ResolutionError) :
    Reasoned (.failed stage.name (unresolvedInfo stage error)) := by
  simp [Reasoned, unresolvedInfo]

theorem reasoned_ending (runner : Runner) (index : Nat) (steps : List Step) :
    Reasoned (runner.ending index steps).outcome := by
  induction steps generalizing index with
  | nil => trivial
  | cons step rest ih =>
    rw [ending]
    split
    · exact ih _
    · exact reasoned_exitInfo _ _

/-- The end of a run of these steps: what they come to, or an obstacle. -/
def Carries (runner : Runner) (before : Progress) (steps : List Step) (result : RunResult)
    (last : Progress) (ended : Except RunError RunResult) (after : Progress) : Prop :=
  (runner.Passable before steps ∧ ended = .ok result ∧ after = last) ∨
  ∃ error calls, runner.Obstructed before steps error calls ∧ ended = .error error ∧
    after.commands = before.commands ++ calls ∧ BrokenOff before last after

/-- What a run gives that goes on with these steps from an index, after earlier stages. -/
def resultFrom (runner : Runner) (index : Nat) (done : List StageOutcome) (steps : List Step) :
    RunResult :=
  ⟨(runner.ending index steps).outcome, (runner.ending index steps).state,
    done ++ steps.map (Step.outcome runner)⟩

def carriedFrom (runner : Runner) (index : Nat) (steps : List Step) (progress : Progress) :
    Progress :=
  runner.closed (runner.ending index steps).outcome
    (runner.moved (runner.ending index steps).state (runner.ending index steps).current
      (runner.passed index steps progress))

section From

variable {index : Nat} {done : List StageOutcome} {step : Step} {progress : Progress}

theorem resultFrom_cons (success : (step.outcome runner).status = .success) :
    runner.resultFrom index done (step :: steps) =
      runner.resultFrom (index + 1) (done ++ [step.outcome runner]) steps := by
  rw [resultFrom, resultFrom, ending, if_pos success, List.append_assoc]
  rfl

theorem carriedFrom_cons (success : (step.outcome runner).status = .success) :
    runner.carriedFrom index (step :: steps) progress =
      runner.carriedFrom (index + 1) steps
        (step.after runner (runner.moved .running (some index) progress)) := by
  rw [carriedFrom, carriedFrom, ending, if_pos success]
  rfl

theorem resultFrom_last (failed : (step.outcome runner).status ≠ .success) :
    runner.resultFrom index done [step] = ⟨.failed step.stage.name
      (exitInfo (step.outcome runner)), .stageFailed, done ++ [step.outcome runner]⟩ := by
  rw [resultFrom, ending, if_neg failed]
  rfl

theorem carriedFrom_last (failed : (step.outcome runner).status ≠ .success) :
    runner.carriedFrom index [step] progress =
      runner.closed (.failed step.stage.name (exitInfo (step.outcome runner)))
        (runner.moved .stageFailed (some index)
          (step.after runner (runner.moved .running (some index) progress))) := by
  rw [carriedFrom, ending, if_neg failed]
  rfl

/-- What is logged after a step of a run. -/
theorem grows_rest (runner : Runner) (progress : Progress) (index : Nat) (step : Step)
    (steps : List Step) :
    (step.after runner (runner.moved .running (some index) progress)).log.Grows
      (runner.carriedFrom index (step :: steps) progress).log :=
  ((grows_passed runner _ (index + 1) steps).trans (grows_moved runner _ _ _)).trans
    (grows_closed runner _ _)

end From

/-- The last transition of a run of clear steps, and what follows it. -/
theorem closing_ends {middle : Progress} {state : RunState} {outcome : RunOutcome}
    (told : Told outcome) (clear : ∀ step ∈ steps, step.Clear runner before.manifest.isSome)
    (kept : middle.manifest.isSome = before.manifest.isSome)
    (readings : middle.readings = before.readings + 2 * steps.length)
    (calls : middle.commands = before.commands ++ steps.map Step.command)
    (grows : before.log.Grows middle.log) (left : state ≠ .pending) (current : Option Nat)
    (stages : List StageOutcome) :
    Ends (do
      runner.transition state current
      runner.finish outcome stages) middle
      (runner.Carries before steps ⟨outcome, state, stages⟩
        (runner.closed outcome (runner.moved state current middle))) := by
  refine .following (transition_returns _ _ _ _) ?_
  refine (finish_ends told (runner.moved state current middle) stages).mono ?_
  have read : (runner.moved state current middle).readings =
    before.readings + 2 * steps.length := readings
  have held : (runner.moved state current middle).manifest.isSome = before.manifest.isSome := kept
  rw [read, held]
  rintro ended after (⟨closes, rfl, rfl⟩ | ⟨held, hidden, rfl, manifest, readings, rfl⟩)
  · exact .inl ⟨⟨clear, closes⟩, rfl, rfl⟩
  · refine .inr ⟨_, _, .closing clear held hidden, rfl, calls, left, ?_, ?_⟩
    · exact grows.trans (grows_moved runner middle state current)
    · exact grows_closed runner (runner.moved state current middle) outcome

/-- A progress with a step of a run behind it. -/
structure Behind (step : Step) (before middle : Progress) : Prop where
  calls : middle.commands = before.commands ++ [step.command]
  readings : middle.readings = before.readings + 2
  kept : middle.manifest.isSome = before.manifest.isSome
  grows : before.log.Grows middle.log

theorem behind_after (runner : Runner) (before : Progress) (index : Nat) (step : Step) :
    Behind step before (step.after runner (runner.moved .running (some index) before)) :=
  ⟨rfl, rfl, Option.isSome_map, grows_after runner before index step⟩

section Cons

variable {index : Nat} {step : Step} {result : RunResult} {after : Progress}

/-- A run goes no further than a step that is broken off. -/
theorem carries_of_broken {error : RunError}
    (obstacle : step.Obstacle runner before.manifest.isSome error)
    (broken : step.Broken runner (runner.moved .running (some index) before) after) :
    runner.Carries before (step :: steps) result (runner.carriedFrom index (step :: steps) before)
      (.error error) after := by
  refine .inr ⟨_, _, .step (List.nil_append _).symm (List.forall_mem_nil _) obstacle, rfl,
    broken.calls, ?_, ?_, ?_⟩
  · rw [broken.state]
    intro same
    cases same
  · exact (grows_moved runner before _ _).trans broken.begins
  · exact broken.goes.trans (grows_rest runner before index step steps)

/-- What comes of the later steps of a run comes of the run if the step ahead of them is clear. -/
theorem Carries.cons {middle last : Progress} {ended : Except RunError RunResult}
    (clear : step.Clear runner before.manifest.isSome) (behind : Behind step before middle)
    (carried : runner.Carries middle steps result last ended after) :
    runner.Carries before (step :: steps) result last ended after := by
  rcases carried with ⟨passable, rfl, rfl⟩ | ⟨error, calls, obstructed, rfl, ran, broken⟩
  · exact .inl ⟨passable.cons clear behind.kept behind.readings, rfl, rfl⟩
  · refine .inr ⟨error, _, obstructed.cons clear behind.kept behind.readings, rfl, ?_, broken.left,
      behind.grows.trans broken.begins, broken.goes⟩
    rw [ran, behind.calls, List.append_assoc]
    rfl

end Cons

theorem runFrom_ends (runner : Runner) (before : Progress) (index : Nat) (done : List StageOutcome)
    (pending : List (Stage × Command)) :
    Ends (runner.runFrom index done pending) before
      (runner.Carries before (runner.course before.commands.length before.readings pending)
        (runner.resultFrom index done
          (runner.course before.commands.length before.readings pending))
        (runner.carriedFrom index
          (runner.course before.commands.length before.readings pending) before)) := by
  induction pending generalizing index done before with
  | nil =>
    have clear : ∀ step ∈ ([] : List Step), step.Clear runner before.manifest.isSome :=
      List.forall_mem_nil _
    have told : Told .succeeded := rfl
    rw [course, resultFrom, List.map_nil, List.append_nil]
    exact closing_ends told clear rfl rfl (List.append_nil _).symm .refl (by decide) none done
  | cons entry rest ih =>
    obtain ⟨stage, command⟩ := entry
    -- the step goes under a name: unfolded, it would stand in every part of the progress
    obtain ⟨step, next⟩ :
        ∃ step, step = runner.step before.commands.length before.readings stage command :=
      ⟨_, rfl⟩
    have stepped := runStage_ends (runner.moved .running (some index) before) next
    rw [course_cons, ← next]
    refine .following (transition_returns _ _ _ _) (stepped.andThen ?_ ?_)
    · rintro _ after (⟨-, ok, -⟩ | ⟨error, obstacle, raised, broken⟩)
      · cases ok
      · cases raised
        exact carries_of_broken obstacle broken
    · rintro _ _ (⟨clear, ok, rfl⟩ | ⟨error, obstacle, raised, broken⟩)
      case inr => cases raised
      cases ok
      have clear : step.Clear runner before.manifest.isSome := clear
      have behind := behind_after runner before index step
      by_cases success : (step.outcome runner).status = .success
      · dsimp only
        rw [if_pos success, if_pos success, resultFrom_cons success, carriedFrom_cons success]
        have resumed := ih (step.after runner (runner.moved .running (some index) before))
          (index + 1) (done ++ [step.outcome runner])
        have counted := (congrArg List.length behind.calls).trans List.length_append
        rw [counted, behind.readings] at resumed
        exact resumed.mono fun _ _ carried => carried.cons clear behind
      · have place : step.stage = stage := by
          rw [next]
          rfl
        have begun : RunState.stageFailed ≠ .pending := by decide
        dsimp only
        rw [if_neg success, if_neg success, ← place, resultFrom_last success,
          carriedFrom_last success]
        have told := (reasoned_exitInfo step.stage.name (step.outcome runner)).told
        exact closing_ends told (List.forall_mem_singleton.mpr clear) behind.kept behind.readings
          behind.calls behind.grows begun (some index) (done ++ [step.outcome runner])

/-- Nothing keeps a run from recording that this stage does not resolve. -/
structure Refusable (runner : Runner) (before : Progress) (stage : Stage) : Prop where
  readable : ∀ manifest, before.manifest = some manifest →
    Manifest.StartReadable (manifest.entryOf stage.name)
  fails : before.manifest.isSome = true → (runner.world.clock before.readings).utc?.isSome
  closes : before.manifest.isSome = true → (runner.world.clock (before.readings + 1)).utc?.isSome

/-- What a run gives whose stages do not all resolve, for the first that does not. -/
def refusalOf (stage : Stage) (error : ResolutionError) : RunResult :=
  ⟨.failed stage.name (unresolvedInfo stage error), .stageFailed, [unresolvedOutcome stage error]⟩

/-- The progress after a stage at an index did not resolve, with the outcome. -/
def declined (runner : Runner) (index : Nat) (stage : Stage) (error : ResolutionError)
    (progress : Progress) : Progress :=
  runner.closed (.failed stage.name (unresolvedInfo stage error))
    (runner.refused index stage error progress)

/-- The end of a run of which a stage does not resolve: that, or a recording that stops. -/
def Declines (runner : Runner) (before : Progress) (stage : Stage) (error : ResolutionError)
    (last : Progress) (ended : Except RunError RunResult) (after : Progress) : Prop :=
  (runner.Refusable before stage ∧ ended = .ok (refusalOf stage error) ∧ after = last) ∨
  ¬ runner.Refusable before stage ∧ ∃ fault, ended = .error (.recording fault) ∧
    after.commands = before.commands ∧ BrokenOff before last after

theorem failUnresolved_ends (runner : Runner) (before : Progress) (index : Nat) (stage : Stage)
    (error : ResolutionError) :
    Ends (runner.failUnresolved index stage error) before
      (runner.Declines before stage error (runner.declined index stage error before)) := by
  have told := (reasoned_unresolved stage error).told
  have failed : (unresolvedOutcome stage error).error.isSome := rfl
  have grows := grows_moved runner before .stageFailed (some index)
  have goes := grows_closed runner (runner.refused index stage error before)
    (.failed stage.name (unresolvedInfo stage error))
  refine .following (transition_returns _ _ _ _) (.following (readClock_returns _ _) ?_)
  by_cases closable : ∀ manifest, before.manifest = some manifest →
      Manifest.StartReadable (manifest.entryOf stage.name) ∧
        (runner.world.clock before.readings).utc?.isSome
  · refine .following (recordFailure_returns closable) ?_
    refine (finish_ends told (runner.refused index stage error before) _).mono ?_
    have kept : (runner.refused index stage error before).manifest.isSome =
      before.manifest.isSome := Option.isSome_map
    rw [kept]
    rintro ended after (⟨closes, rfl, rfl⟩ | ⟨held, hidden, rfl, manifest, readings, rfl⟩)
    · refine .inl ⟨⟨fun manifest held => (closable manifest held).1, ?_, closes⟩, rfl, rfl⟩
      intro held
      obtain ⟨manifest, held⟩ := Option.isSome_iff_exists.mp held
      exact (closable manifest held).2
    · refine .inr ⟨?_, _, rfl, rfl, nofun, grows, goes⟩
      intro refusable
      have shown := refusable.closes held
      rw [show (runner.world.clock (before.readings + 1)).utc? = none from hidden] at shown
      cases shown
  · push Not at closable
    obtain ⟨manifest, held, unclosable⟩ := closable
    have moved : { runner.moved .stageFailed (some index) before with
      readings := before.readings + 1 }.manifest = some manifest := held
    obtain ⟨fault, changed, -, stopped⟩ := recordFailure_stops moved failed
      fun closable => unclosable closable.1 closable.2
    refine .of_stops (.andThen stopped) (.inr ⟨?_, fault, rfl, rfl, nofun, grows, goes⟩)
    intro refusable
    exact unclosable (refusable.readable manifest held)
      (refusable.fails (Option.isSome_of_eq_some held))

section Run

variable {requested : Option (List Stage)} {ordered : List Stage}
  {pending : List (Stage × Command)} {stage : Stage} {error : ResolutionError}
  {result : RunResult}

/-- Stages that are all prepared are carried out. -/
theorem run_carries (fresh : before.state = .pending) (orders : runner.Orders requested ordered)
    (prepared : runner.prepare ordered = (pending, none)) :
    Ends (runner.run requested) before
      (runner.Carries before (runner.course before.commands.length before.readings pending)
        (runner.resultOf (runner.course before.commands.length before.readings pending))
        (runner.carried (runner.course before.commands.length before.readings pending)
          (runner.warned before))) := by
  have ended := runFrom_ends runner (runner.warned before) 0 [] pending
  unfold Ends at ended ⊢
  rw [run_proceeds fresh orders, proceed, prepared]
  rcases ended with ⟨passable, ok, last⟩ | ⟨error, calls, obstructed, raised, ran, broken⟩
  · exact .inl ⟨passable.of_warned, ok, last⟩
  · exact .inr ⟨error, calls, obstructed.of_warned, raised, ran, broken.of_warned⟩

/-- One that does not resolve ends the run before its first command. -/
theorem run_declines (fresh : before.state = .pending) (orders : runner.Orders requested ordered)
    (prepared : runner.prepare ordered = (pending, some (stage, error))) :
    Ends (runner.run requested) before
      (runner.Declines before stage error
        (runner.declined pending.length stage error (runner.warned before))) := by
  have ended := failUnresolved_ends runner (runner.warned before) pending.length stage error
  unfold Ends at ended ⊢
  rw [run_proceeds fresh orders, proceed, prepared]
  rcases ended with ⟨refusable, ok, last⟩ | ⟨unrefusable, fault, raised, ran, broken⟩
  · exact .inl ⟨⟨refusable.readable, refusable.fails, refusable.closes⟩, ok, last⟩
  · refine .inr ⟨?_, fault, raised, ran, broken.of_warned⟩
    exact fun refusable =>
      unrefusable ⟨refusable.readable, refusable.fails, refusable.closes⟩

theorem run_returns_of_passable (fresh : before.state = .pending)
    (orders : runner.Orders requested ordered) (prepared : runner.prepare ordered = (pending, none))
    (passable : runner.Passable before
      (runner.course before.commands.length before.readings pending)) :
    Returns (runner.run requested) before
      (runner.resultOf (runner.course before.commands.length before.readings pending))
      (runner.carried (runner.course before.commands.length before.readings pending)
        (runner.warned before)) := by
  refine Ends.returns ((run_carries fresh orders prepared).mono ?_)
  rintro ended after (⟨-, returned⟩ | ⟨error, calls, obstructed, -⟩)
  · exact returned
  · exact absurd passable obstructed.not_passable

theorem run_returns_of_refusable (fresh : before.state = .pending)
    (orders : runner.Orders requested ordered)
    (prepared : runner.prepare ordered = (pending, some (stage, error)))
    (refusable : runner.Refusable before stage) :
    Returns (runner.run requested) before (refusalOf stage error)
      (runner.declined pending.length stage error (runner.warned before)) := by
  refine Ends.returns ((run_declines fresh orders prepared).mono ?_)
  rintro ended after (⟨-, returned⟩ | ⟨unrefusable, -⟩)
  · exact returned
  · exact absurd refusable unrefusable

/-- A run that returns is the first of its runner, of stages that can be told apart. -/
theorem distinct_of_returns (ran : Returns (runner.run requested) before result after) :
    before.state = .pending ∧ ∀ stages, requested = some stages → Stage.Distinct stages := by
  unfold Returns at ran
  by_cases fresh : before.state = .pending
  · refine ⟨fresh, ?_⟩
    rintro stages rfl
    cases planned : planStages stages with
    | error fault =>
      rw [run_of_unplanned fresh planned] at ran
      cases ran
    | ok ordered => exact distinct_of_planStages planned
  · rw [run_of_used fresh] at ran
    cases ran

/-- A run that has returned has carried out its course, or declined a stage. -/
inductive Returned (runner : Runner) (before : Progress) (ordered : List Stage) :
    RunResult → Progress → Prop
  | carried {pending : List (Stage × Command)} (split : pending.map Prod.fst = ordered)
      (prepared : ∀ entry ∈ pending, runner.Prepared entry.1 entry.2)
      (passable : runner.Passable before
        (runner.course before.commands.length before.readings pending)) :
      Returned runner before ordered
        (runner.resultOf (runner.course before.commands.length before.readings pending))
        (runner.carried (runner.course before.commands.length before.readings pending)
          (runner.warned before))
  | declined {pending : List (Stage × Command)} {stage : Stage} {error : ResolutionError}
      {rest : List Stage} (split : ordered = pending.map Prod.fst ++ stage :: rest)
      (prepared : ∀ entry ∈ pending, runner.Prepared entry.1 entry.2)
      (unresolved : runner.policy.stageArguments stage = .error error)
      (refusable : runner.Refusable before stage) :
      Returned runner before ordered (refusalOf stage error)
        (runner.declined pending.length stage error (runner.warned before))

theorem returned_of_returns (ran : Returns (runner.run requested) before result after) :
    ∃ ordered, runner.Orders requested ordered ∧ runner.Returned before ordered result after := by
  obtain ⟨fresh, distinct⟩ := distinct_of_returns ran
  obtain ⟨ordered, orders⟩ := exists_orders runner distinct
  refine ⟨ordered, orders, ?_⟩
  rcases prepare_cases runner ordered with ⟨pending, prepared, split, each⟩ |
    ⟨pending, stage, error, rest, prepared, split, each, unresolved⟩
  · rcases (run_carries fresh orders prepared).at_returns ran with ⟨passable, ok, rfl⟩ |
      ⟨error, calls, -, raised, -⟩
    · cases ok
      exact .carried split each passable
    · cases raised
  · rcases (run_declines fresh orders prepared).at_returns ran with ⟨refusable, ok, rfl⟩ |
      ⟨-, fault, raised, -⟩
    · cases ok
      exact .declined split each unresolved refusable
    · cases raised

/-- Either all stages resolve and the steps that they lead to are clear, or the first that does not
can be recorded. -/
def Free (runner : Runner) (before : Progress) :
    List (Stage × Command) × Option (Stage × ResolutionError) → Prop
  | (pending, none) =>
    runner.Passable before (runner.course before.commands.length before.readings pending)
  | (_, some (stage, _)) => runner.Refusable before stage

/-- Nothing keeps a run from its result: it is the first of its runner, its stages can be told
apart, and what comes of them meets no obstacle. -/
structure Unhindered (runner : Runner) (requested : Option (List Stage)) (before : Progress) :
    Prop where
  fresh : before.state = .pending
  distinct : ∀ stages, requested = some stages → Stage.Distinct stages
  free : ∀ ordered, runner.Orders requested ordered → runner.Free before (runner.prepare ordered)

/-- A run returns just where nothing keeps it from its result. -/
theorem returns_iff_unhindered :
    (∃ result after, Returns (runner.run requested) before result after) ↔
      runner.Unhindered requested before := by
  constructor
  · rintro ⟨result, after, ran⟩
    obtain ⟨fresh, distinct⟩ := distinct_of_returns ran
    refine ⟨fresh, distinct, fun ordered orders => ?_⟩
    rcases prepared : runner.prepare ordered with ⟨pending, _ | ⟨stage, error⟩⟩
    · rcases (run_carries fresh orders prepared).at_returns ran with ⟨passable, -⟩ |
        ⟨error, calls, -, raised, -⟩
      · exact passable
      · cases raised
    · rcases (run_declines fresh orders prepared).at_returns ran with ⟨refusable, -⟩ |
        ⟨-, fault, raised, -⟩
      · exact refusable
      · cases raised
  · rintro ⟨fresh, distinct, free⟩
    obtain ⟨ordered, orders⟩ := exists_orders runner distinct
    have free := free ordered orders
    rcases prepared : runner.prepare ordered with ⟨pending, _ | ⟨stage, error⟩⟩
    · rw [prepared] at free
      exact ⟨_, _, run_returns_of_passable fresh orders prepared free⟩
    · rw [prepared] at free
      exact ⟨_, _, run_returns_of_refusable fresh orders prepared free⟩

/-- What comes of every step that a run leads to has a text. -/
def Spoken (runner : Runner) (requested : Option (List Stage)) (before : Progress) : Prop :=
  ∀ ordered pending, runner.Orders requested ordered → runner.prepare ordered = (pending, none) →
    ∀ step ∈ runner.course before.commands.length before.readings pending,
      Tells step.response

theorem answered_of_course {calls readings : Nat} {step : Step}
    (member : step ∈ runner.course calls readings pending) :
    ∃ call, step.response = runner.world.executor call step.command := by
  obtain ⟨index, present⟩ := List.mem_iff_getElem?.mp member
  rw [course_getElem? present]
  exact ⟨_, rfl⟩

theorem spoken_of_tells (requested : Option (List Stage)) (before : Progress)
    (tells : ∀ call command, Tells (runner.world.executor call command)) :
    runner.Spoken requested before := by
  intro ordered pending orders prepared step member
  obtain ⟨call, answered⟩ := answered_of_course member
  exact answered ▸ tells call step.command

/-- All readings of the clock are of one kind. -/
def OneKind (runner : Runner) : Prop :=
  ∀ reading other, (runner.world.clock reading).offset.isSome =
    (runner.world.clock other).offset.isSome

/-- What a manifest is to take can be recorded. -/
def Recordable (runner : Runner) (manifest : Manifest) : Prop :=
  manifest.StartsReadable ∧ ∀ reading, (runner.world.clock reading).utc?.isSome

/-- A step takes its times from the clock. -/
theorem readings_of_course {calls readings : Nat} {step : Step}
    (member : step ∈ runner.course calls readings pending) :
    ∃ first second, step.started = runner.world.clock first ∧
      step.finished = runner.world.clock second := by
  obtain ⟨index, present⟩ := List.mem_iff_getElem?.mp member
  rw [course_getElem? present]
  exact ⟨_, _, rfl, rfl⟩

/-- Under a clock of one kind, whose times can be recorded if there is a manifest, nothing but a
failure without a text keeps a run from its result. -/
theorem unhindered_iff_spoken (fresh : before.state = .pending)
    (distinct : ∀ stages, requested = some stages → Stage.Distinct stages)
    (oneKind : runner.OneKind)
    (recordable : ∀ manifest, before.manifest = some manifest → runner.Recordable manifest) :
    runner.Unhindered requested before ↔ runner.Spoken requested before := by
  have shown : before.manifest.isSome = true →
      ∀ reading, (runner.world.clock reading).utc?.isSome := by
    intro held
    obtain ⟨manifest, held⟩ := Option.isSome_iff_exists.mp held
    exact (recordable manifest held).2
  constructor
  · intro unhindered ordered pending orders prepared step member
    have passable := unhindered.free ordered orders
    rw [prepared] at passable
    exact (passable.clear step member).told
  · intro spoken
    refine ⟨fresh, distinct, fun ordered orders => ?_⟩
    rcases prepared : runner.prepare ordered with ⟨pending, _ | ⟨stage, error⟩⟩
    · refine ⟨fun step member => ?_, fun held => shown held _⟩
      obtain ⟨first, second, started, finished⟩ := readings_of_course member
      refine ⟨?_, spoken ordered pending orders prepared step member, ?_, ?_⟩
      · rw [Step.OneKind, started, finished]
        exact oneKind first second
      · intro held
        rw [started]
        exact shown held first
      · intro held
        rw [finished]
        exact shown held second
    · exact ⟨fun manifest held => (recordable manifest held).1.entryOf stage.name,
        fun held => shown held _, fun held => shown held _⟩

end Run

end BuildRules.Runner
