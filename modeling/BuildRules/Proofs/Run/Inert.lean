import BuildRules.Proofs.Run.Attempt
import BuildRules.Proofs.Run.FirstFailure

/-! Settings of the environment, the directory of the commands and a manifest are inert. Runs that
differ in nothing else give one result, start the same arguments and log the same. -/
namespace BuildRules

/-- Two runs that nobody tells apart by their states, logs and arguments. If they share a manifest
they keep it the same. -/
structure Progress.Alike (shared : Prop) (progress other : Progress) : Prop where
  state : progress.state = other.state
  current : progress.current = other.current
  log : progress.log.Alike other.log
  arguments : progress.commands.map Command.arguments = other.commands.map Command.arguments
  manifest : shared → progress.manifest = other.manifest
  readings : shared → progress.readings = other.readings

namespace Runner

variable {runner other : Runner} {shared : Prop} {progress twin : Progress}

/-- Runners of one policy and one clock, whose commands are answered alike by their number. They
may differ in their environments, in their directories and in the times of their logs. -/
structure Twins (runner other : Runner) : Prop where
  policy : runner.policy = other.policy
  clock : runner.world.clock = other.world.clock
  answers : ∀ call command twin,
    runner.world.executor call command = other.world.executor call twin

theorem Twins.symm (twins : Twins runner other) : Twins other runner :=
  ⟨twins.policy.symm, twins.clock.symm,
    fun call command twin => (twins.answers call twin command).symm⟩

/-- Steps that differ in the variables and the directory of their commands only. -/
structure Step.Alike (step twin : Step) : Prop where
  stage : step.stage = twin.stage
  arguments : step.command.arguments = twin.command.arguments
  started : step.started = twin.started
  finished : step.finished = twin.finished
  response : step.response = twin.response

theorem step_twins (twins : Twins runner other) (calls readings : Nat) (stage : Stage)
    {command twin : Command} (same : command.arguments = twin.arguments) :
    (runner.step calls readings stage command).Alike (other.step calls readings stage twin) := by
  refine ⟨rfl, same, ?_, ?_, twins.answers calls command twin⟩
  · exact congrFun twins.clock readings
  · exact congrFun twins.clock (readings + 1)

namespace Step.Alike

variable {step stepTwin : Step}

theorem failure (alike : step.Alike stepTwin) (twins : Twins runner other) :
    step.failure runner = stepTwin.failure other := by
  rw [Step.failure, Step.failure, alike.response, alike.stage, alike.arguments]
  cases stepTwin.response with
  | error interruption => rfl
  | ok result => simp only [violations, twins.policy]

/-- What breaks a step off does so whoever runs it. -/
theorem clear_iff (alike : step.Alike stepTwin) (runner other : Runner) (kept : Bool) :
    step.Clear runner kept ↔ stepTwin.Clear other kept := by
  constructor
  · rintro ⟨oneKind, told, begins, ends⟩
    rw [Step.OneKind, alike.started, alike.finished] at oneKind
    rw [alike.response] at told
    rw [alike.started] at begins
    rw [alike.finished] at ends
    exact ⟨oneKind, told, begins, ends⟩
  · rintro ⟨oneKind, told, begins, ends⟩
    rw [Step.OneKind, ← alike.started, ← alike.finished] at oneKind
    rw [← alike.response] at told
    rw [← alike.started] at begins
    rw [← alike.finished] at ends
    exact ⟨oneKind, told, begins, ends⟩

theorem outcome (alike : step.Alike stepTwin) (twins : Twins runner other) :
    step.outcome runner = stepTwin.outcome other := by
  have milliseconds : step.milliseconds = stepTwin.milliseconds := by
    rw [Step.milliseconds, Step.milliseconds, alike.started, alike.finished]
  rw [Step.outcome, Step.outcome, alike.failure twins, alike.response, alike.stage, alike.arguments,
    milliseconds]
  cases stepTwin.response with
  | error interruption => rfl
  | ok result => simp only [completed, violations, twins.policy]

theorem recorded (alike : step.Alike stepTwin) (twins : Twins runner other) :
    step.recorded runner = stepTwin.recorded other := by
  funext manifest
  simp only [Step.recorded, Step.ended, Step.begun, alike.outcome twins, alike.stage,
    alike.arguments, alike.started, alike.finished]

theorem logged (alike : step.Alike stepTwin) (twins : Twins runner other) (calls : Nat)
    {log otherLog : RunLog} (same : log.Alike otherLog) :
    (step.logged runner calls log).Alike (stepTwin.logged other calls otherLog) := by
  simp only [Step.logged, Step.accounted, Step.cautioned, Step.announced, alike.outcome twins,
    alike.stage, alike.arguments]
  have warned := (same.add (runner.world.logTime calls) (other.world.logTime calls)
    stepTwin.stage.name "INFO" "stage started"
    (.ofFields [("argv", .ofTexts stepTwin.command.arguments)])).warnAll
      (runner.world.logTime (calls + 1)) (other.world.logTime (calls + 1)) stepTwin.stage.name id
      (stepTwin.outcome other).warnings
  cases (stepTwin.outcome other).error with
  | none => exact warned.add _ _ _ _ _ _
  | some payload => exact warned

end Step.Alike

theorem course_twins (twins : Twins runner other) {pending others : List (Stage × Command)}
    (parts : List.Forall₂ SameArguments pending others) (calls readings : Nat) :
    List.Forall₂ Step.Alike (runner.course calls readings pending)
      (other.course calls readings others) := by
  induction parts generalizing calls readings with
  | nil => exact .nil
  | @cons entry otherEntry pending others head _ ih =>
    obtain ⟨stage, command⟩ := entry
    obtain ⟨_, otherCommand⟩ := otherEntry
    obtain ⟨rfl, same⟩ := head
    have alike := step_twins twins calls readings stage same
    rw [course_cons, course_cons, alike.outcome twins]
    refine .cons alike ?_
    split
    · exact ih _ _
    · exact .nil

theorem ending_twins (twins : Twins runner other) {steps others : List Step}
    (alike : List.Forall₂ Step.Alike steps others) (index : Nat) :
    runner.ending index steps = other.ending index others := by
  induction alike generalizing index with
  | nil => rfl
  | cons head _ ih => rw [ending, ending, head.outcome twins, head.stage, ih]

theorem resultOf_twins (twins : Twins runner other) {steps others : List Step}
    (alike : List.Forall₂ Step.Alike steps others) :
    runner.resultOf steps = other.resultOf others := by
  have outcomes : steps.map (Step.outcome runner) = others.map (Step.outcome other) := by
    induction alike with
    | nil => rfl
    | cons head _ ih => rw [List.map_cons, List.map_cons, head.outcome twins, ih]
  rw [resultOf, resultOf, ending_twins twins alike, outcomes]

/-- They start the same commands, wherever they are broken off. -/
theorem attempted_twins (runner other : Runner) {steps others : List Step}
    (alike : List.Forall₂ Step.Alike steps others) (kept : Bool) :
    (runner.attempted kept steps).map (·.command.arguments) =
      (other.attempted kept others).map (·.command.arguments) := by
  induction alike with
  | nil => rfl
  | @cons step twin _ _ head _ ih =>
    rw [attempted, attempted]
    by_cases clear : step.Clear runner kept
    · rw [if_pos clear, if_pos ((head.clear_iff runner other kept).mp clear), List.map_cons,
        List.map_cons, head.arguments, ih]
    · rw [if_neg clear, if_neg (mt (head.clear_iff runner other kept).mpr clear), Step.called,
        Step.called, head.started]
      split
      · rfl
      · exact congrArg (fun arguments => [arguments]) head.arguments

theorem Passable.of_alike (clock : runner.world.clock = other.world.clock) {before : Progress}
    {steps others : List Step} (alike : List.Forall₂ Step.Alike steps others)
    (passable : runner.Passable before steps) :
    other.Passable before others := by
  obtain ⟨clear, closes⟩ := passable
  refine ⟨?_, ?_⟩
  · intro twin member
    obtain ⟨step, present, same⟩ := exists_of_forall₂ alike.flip member
    exact (same.clear_iff runner other _).mp (clear step present)
  · rwa [clock, alike.length_eq] at closes

theorem Refusable.of_clock (clock : runner.world.clock = other.world.clock) {before : Progress}
    {stage : Stage} (refusable : runner.Refusable before stage) :
    other.Refusable before stage := by
  obtain ⟨readable, fails, closes⟩ := refusable
  rw [clock] at fails closes
  exact ⟨readable, fails, closes⟩

section Progress

theorem calls_alike (alike : Progress.Alike shared progress twin) :
    progress.commands.length = twin.commands.length := by
  have counted := congrArg List.length alike.arguments
  rwa [List.length_map, List.length_map] at counted

theorem warned_alike (twins : Twins runner other) (alike : Progress.Alike shared progress twin) :
    Progress.Alike shared (runner.warned progress) (other.warned twin) := by
  refine { alike with log := ?_ }
  simp only [warned, twins.policy]
  exact alike.log.warnAll _ _ "policy" LintPolicy.Conflict.message _

theorem moved_alike (alike : Progress.Alike shared progress twin) (runner other : Runner)
    (state : RunState) (current : Option Nat) :
    Progress.Alike shared (runner.moved state current progress)
      (other.moved state current twin) :=
  { alike with state := rfl, current := rfl, log := alike.log.add _ _ _ _ _ _ }

theorem after_alike (twins : Twins runner other) {step stepTwin : Step}
    (steps : step.Alike stepTwin) (alike : Progress.Alike shared progress twin) :
    Progress.Alike shared (step.after runner progress) (stepTwin.after other twin) where
  state := alike.state
  current := alike.current
  log := by
    rw [Step.after, Step.after, calls_alike alike]
    exact steps.logged twins _ alike.log
  arguments := by
    simp only [Step.after, List.map_append, alike.arguments, List.map_singleton, steps.arguments]
  manifest held := by
    rw [Step.after, Step.after, alike.manifest held, steps.recorded twins]
  readings held := congrArg (· + 2) (alike.readings held)

theorem passed_alike (twins : Twins runner other) {steps others : List Step}
    (pairs : List.Forall₂ Step.Alike steps others) (index : Nat)
    (alike : Progress.Alike shared progress twin) :
    Progress.Alike shared (runner.passed index steps progress)
      (other.passed index others twin) := by
  induction pairs generalizing index progress twin with
  | nil => exact alike
  | cons head _ ih =>
    rw [passed, passed]
    exact ih (index + 1) (after_alike twins head (moved_alike alike runner other .running _))

theorem closed_alike (twins : Twins runner other) (outcome : RunOutcome)
    (alike : Progress.Alike shared progress twin) :
    Progress.Alike shared (runner.closed outcome progress) (other.closed outcome twin) where
  state := alike.state
  current := alike.current
  log := alike.log.add _ _ _ _ _ _
  arguments := alike.arguments
  manifest held := by
    simp only [closed, alike.manifest held, alike.readings held, twins.clock]
  readings held := by
    simp only [closed, alike.manifest held, alike.readings held]

theorem refused_alike (twins : Twins runner other) (index : Nat) (stage : Stage)
    (error : ResolutionError) (alike : Progress.Alike shared progress twin) :
    Progress.Alike shared (runner.refused index stage error progress)
      (other.refused index stage error twin) :=
  { moved_alike alike runner other .stageFailed (some index) with
    manifest := by
      intro held
      simp only [refused, alike.manifest held, alike.readings held, twins.clock]
    readings := fun held => congrArg (· + 1) (alike.readings held) }

theorem carried_alike (twins : Twins runner other) {steps others : List Step}
    (pairs : List.Forall₂ Step.Alike steps others) (alike : Progress.Alike shared progress twin) :
    Progress.Alike shared (runner.carried steps progress) (other.carried others twin) := by
  rw [carried, carried, ending_twins twins pairs]
  exact closed_alike twins _ (moved_alike (passed_alike twins pairs 0 alike) runner other _ _)

theorem start_alike (id : String) (manifest stored : Option Manifest) :
    Progress.Alike (manifest = stored) (.start id manifest) (.start id stored) where
  state := rfl
  current := rfl
  log := ⟨rfl, rfl, rfl⟩
  arguments := rfl
  manifest same := same
  readings _ := rfl

end Progress

theorem Orders.of_twins (twins : Twins runner other) {requested : Option (List Stage)}
    {ordered : List Stage} (orders : runner.Orders requested ordered) :
    other.Orders requested ordered := by
  cases requested with
  | none => exact Eq.trans orders (congrArg Policy.stages twins.policy)
  | some stages => exact orders

theorem exists_prepared_twin (twins : Twins runner other) {ordered : List Stage}
    {pending : List (Stage × Command)} {stopped : Option (Stage × ResolutionError)}
    (prepared : runner.prepare ordered = (pending, stopped)) :
    ∃ others, other.prepare ordered = (others, stopped) ∧
      List.Forall₂ SameArguments pending others :=
  exists_prepared (congrArg Policy.toolchain twins.policy)
    (fun stage => congrArg (Policy.stageArguments · stage) twins.policy) prepared

section Runs

variable {requested : Option (List Stage)} {id : String} {manifest stored : Option Manifest}

theorem free_twins (twins : Twins runner other) {before : Progress} {ordered : List Stage}
    (free : runner.Free before (runner.prepare ordered)) :
    other.Free before (other.prepare ordered) := by
  rcases prepared : runner.prepare ordered with ⟨pending, _ | ⟨stage, error⟩⟩
  · obtain ⟨others, otherPrepared, parts⟩ := exists_prepared_twin twins prepared
    rw [prepared] at free
    rw [otherPrepared]
    exact Passable.of_alike twins.clock (course_twins twins parts _ _) free
  · obtain ⟨others, otherPrepared, -⟩ := exists_prepared_twin twins prepared
    rw [prepared] at free
    rw [otherPrepared]
    exact Refusable.of_clock twins.clock free

theorem Unhindered.of_twins {before : Progress} (unhindered : runner.Unhindered requested before)
    (twins : Twins runner other) : other.Unhindered requested before :=
  ⟨unhindered.fresh, unhindered.distinct, fun ordered orders =>
    free_twins twins (unhindered.free ordered (orders.of_twins twins.symm))⟩

theorem shown_of_recordable (recordable : ∀ kept, manifest = some kept → runner.Recordable kept)
    (held : manifest.isSome = true) (reading : Nat) :
    (runner.world.clock reading).utc?.isSome := by
  obtain ⟨kept, held⟩ := Option.isSome_iff_exists.mp held
  exact (recordable kept held).2 reading

theorem times_of_recordable (recordable : ∀ kept, manifest = some kept → runner.Recordable kept)
    (held : manifest.isSome = true) {calls readings : Nat} {pending : List (Stage × Command)} :
    ∀ step ∈ runner.course calls readings pending,
      step.started.utc?.isSome ∧ step.finished.utc?.isSome := by
  intro step member
  obtain ⟨first, second, started, finished⟩ := readings_of_course member
  rw [started, finished]
  exact ⟨shown_of_recordable recordable held first, shown_of_recordable recordable held second⟩

/-- A manifest that takes what it is given keeps no run from its result. -/
theorem unhindered_iff_bare (recordable : ∀ kept, manifest = some kept → runner.Recordable kept) :
    runner.Unhindered requested (.start id manifest) ↔
      runner.Unhindered requested (.start id none) := by
  have free_iff (ordered : List Stage) :
      runner.Free (.start id manifest) (runner.prepare ordered) ↔
        runner.Free (.start id none) (runner.prepare ordered) := by
    rcases runner.prepare ordered with ⟨pending, _ | ⟨stage, error⟩⟩
    · have same (step : Step) (member : step ∈ runner.course 0 0 pending) :
          step.Clear runner manifest.isSome ↔ step.Clear runner false :=
        clear_of_shown fun held => times_of_recordable recordable held step member
      constructor
      · rintro ⟨clear, -⟩
        exact ⟨fun step member => (same step member).mp (clear step member), nofun⟩
      · rintro ⟨clear, -⟩
        exact ⟨fun step member => (same step member).mpr (clear step member),
          fun held => shown_of_recordable recordable held _⟩
    · refine ⟨fun _ => ⟨nofun, nofun, nofun⟩, fun _ => ⟨?_, ?_, ?_⟩⟩
      · exact fun kept held => (recordable kept held).1.entryOf stage.name
      · exact fun held => shown_of_recordable recordable held _
      · exact fun held => shown_of_recordable recordable held _
  constructor
  · rintro ⟨-, distinct, free⟩
    exact ⟨rfl, distinct, fun ordered orders => (free_iff ordered).mp (free ordered orders)⟩
  · rintro ⟨-, distinct, free⟩
    exact ⟨rfl, distinct, fun ordered orders => (free_iff ordered).mpr (free ordered orders)⟩

/-- Two runs get the same manifest, or none but such as take what they are given. -/
def Comparable (runner other : Runner) (manifest stored : Option Manifest) : Prop :=
  manifest = stored ∨ (∀ kept, manifest = some kept → runner.Recordable kept) ∧
    ∀ kept, stored = some kept → other.Recordable kept

theorem unhindered_iff_twin (twins : Twins runner other)
    (comparable : Comparable runner other manifest stored) :
    runner.Unhindered requested (.start id manifest) ↔
      other.Unhindered requested (.start id stored) := by
  rcases comparable with rfl | ⟨recordable, otherRecordable⟩
  · exact ⟨fun unhindered => unhindered.of_twins twins,
      fun unhindered => unhindered.of_twins twins.symm⟩
  · rw [unhindered_iff_bare recordable, unhindered_iff_bare otherRecordable]
    exact ⟨fun unhindered => unhindered.of_twins twins,
      fun unhindered => unhindered.of_twins twins.symm⟩

/-- They start the same commands, whether or not they give a result. -/
theorem started_twins (twins : Twins runner other)
    (comparable : Comparable runner other manifest stored) :
    (runner.started requested (.start id manifest)).map Command.arguments =
      (other.started requested (.start id stored)).map Command.arguments := by
  have fresh (kept : Option Manifest) : (Progress.start id kept).state = .pending := rfl
  by_cases distinct : ∀ stages, requested = some stages → Stage.Distinct stages
  case neg =>
    push Not at distinct
    obtain ⟨stages, rfl, repeated⟩ := distinct
    rw [started_of_repeated (fresh manifest) repeated, started_of_repeated (fresh stored) repeated]
    rfl
  obtain ⟨ordered, orders⟩ := exists_orders runner distinct
  have otherOrders := orders.of_twins twins
  rcases prepared : runner.prepare ordered with ⟨pending, _ | ⟨stage, error⟩⟩
  · obtain ⟨others, otherPrepared, parts⟩ := exists_prepared_twin twins prepared
    have alike := course_twins twins parts 0 0
    have attempts : (runner.attempted manifest.isSome (runner.course 0 0 pending)).map
          (·.command.arguments) =
        (other.attempted stored.isSome (other.course 0 0 others)).map (·.command.arguments) := by
      rcases comparable with rfl | ⟨recordable, otherRecordable⟩
      · exact attempted_twins runner other alike _
      · rw [attempted_of_shown fun held => times_of_recordable recordable held,
          attempted_of_shown fun held => times_of_recordable otherRecordable held]
        exact attempted_twins runner other alike false
    rw [started_of_prepared (fresh manifest) orders prepared,
      started_of_prepared (fresh stored) otherOrders otherPrepared]
    rw [List.map_append, List.map_append, List.map_map, List.map_map]
    exact congrArg ([] ++ ·) attempts
  · obtain ⟨others, otherPrepared, -⟩ := exists_prepared_twin twins prepared
    rw [started_of_unprepared (fresh manifest) orders prepared,
      started_of_unprepared (fresh stored) otherOrders otherPrepared]
    rfl

theorem alike_of_returns (twins : Twins runner other) {result otherResult : RunResult}
    {after otherAfter : Progress}
    (ran : Returns (runner.run requested) (.start id manifest) result after)
    (otherRan : Returns (other.run requested) (.start id stored) otherResult otherAfter) :
    otherResult = result ∧ Progress.Alike (manifest = stored) after otherAfter := by
  obtain ⟨fresh, distinct⟩ := distinct_of_returns ran
  have otherFresh := (distinct_of_returns otherRan).1
  obtain ⟨ordered, orders⟩ := exists_orders runner distinct
  have otherOrders := orders.of_twins twins
  have begun := warned_alike twins (start_alike id manifest stored)
  rcases prepared : runner.prepare ordered with ⟨pending, _ | ⟨stage, error⟩⟩
  · obtain ⟨others, otherPrepared, parts⟩ := exists_prepared_twin twins prepared
    have pairs := course_twins twins parts 0 0
    rcases (run_carries fresh orders prepared).at_returns ran with ⟨-, ok, rfl⟩ |
      ⟨fault, calls, -, raised, -⟩
    case inr => cases raised
    rcases (run_carries otherFresh otherOrders otherPrepared).at_returns otherRan with
      ⟨-, otherOk, rfl⟩ | ⟨fault, calls, -, raised, -⟩
    case inr => cases raised
    cases ok
    cases otherOk
    exact ⟨(resultOf_twins twins pairs).symm, carried_alike twins pairs begun⟩
  · obtain ⟨others, otherPrepared, parts⟩ := exists_prepared_twin twins prepared
    rcases (run_declines fresh orders prepared).at_returns ran with ⟨-, ok, rfl⟩ |
      ⟨-, fault, raised, -⟩
    case inr => cases raised
    rcases (run_declines otherFresh otherOrders otherPrepared).at_returns otherRan with
      ⟨-, otherOk, rfl⟩ | ⟨-, fault, raised, -⟩
    case inr => cases raised
    cases ok
    cases otherOk
    rw [← parts.length_eq]
    exact ⟨rfl, closed_alike twins _ (refused_alike twins _ stage error begun)⟩

/-- Of two runs that differ in their environments, in their directories and in having a manifest or
not, both give the same result, with all that the log of its stages says. They leave the same
state, start commands with the same arguments, log the same events and warnings up to their times,
and keep the manifest the same if they were given the same one. Where something keeps one of them
from its result, so it does the other, unless a manifest does, and both have started the same. -/
theorem run_of_twins (twins : Twins runner other) (requested : Option (List Stage)) (id : String)
    (manifest stored : Option Manifest) :
    (∀ result after otherResult otherAfter,
      Returns (runner.run requested) (.start id manifest) result after →
      Returns (other.run requested) (.start id stored) otherResult otherAfter →
      otherResult = result ∧ Progress.Alike (manifest = stored) after otherAfter) ∧
    (Comparable runner other manifest stored →
      ((∃ result after, Returns (runner.run requested) (.start id manifest) result after) ↔
        ∃ result after, Returns (other.run requested) (.start id stored) result after) ∧
      (runner.started requested (.start id manifest)).map Command.arguments =
        (other.started requested (.start id stored)).map Command.arguments) ∧
    ((∃ result after, Returns (runner.run requested) (.start id manifest) result after) ↔
      runner.Unhindered requested (.start id manifest)) := by
  refine ⟨fun _ _ _ _ ran otherRan => alike_of_returns twins ran otherRan, ?_,
    returns_iff_unhindered⟩
  intro comparable
  refine ⟨?_, started_twins twins comparable⟩
  rw [returns_iff_unhindered, returns_iff_unhindered]
  exact unhindered_iff_twin twins comparable

end Runs

/-- The same answers, with more told and in another directory. -/
def traced : Runner :=
  { firstOnly with environment := ⟨some "1", some true⟩, directory := some "/work" }

def buildTest : List Stage := [⟨"test", 2, none, ["test"]⟩, ⟨"build", 1, none, ["build"]⟩]

theorem firstOnly_runs_like_traced : Twins firstOnly traced ∧
    Comparable firstOnly traced (some ⟨[], [], [], [], []⟩) none ∧
    ∃ result after otherAfter,
      Returns (firstOnly.run (some buildTest)) (.start "run-1" (some ⟨[], [], [], [], []⟩)) result
        after ∧
      Returns (traced.run (some buildTest)) (.start "run-1" none) result otherAfter ∧
      after.log.Alike otherAfter.log := by
  have twins : Twins firstOnly traced := ⟨rfl, rfl, fun _ _ _ => rfl⟩
  have comparable : Comparable firstOnly traced (some ⟨[], [], [], [], []⟩) none := by
    refine .inr ⟨?_, nofun⟩
    intro kept present
    cases present
    exact ⟨by simp [Manifest.StartsReadable], fun _ => rfl⟩
  obtain ⟨agree, together, -⟩ := run_of_twins twins (some buildTest) "run-1"
    (some ⟨[], [], [], [], []⟩) none
  obtain ⟨result, after, ran⟩ := firstOnly_returns
  obtain ⟨otherResult, otherAfter, otherRan⟩ := (together comparable).1.mp ⟨result, after, ran⟩
  obtain ⟨rfl, alike⟩ := agree _ _ _ _ ran otherRan
  exact ⟨twins, comparable, _, _, otherAfter, ran, otherRan, alike.log⟩

end Runner
end BuildRules
