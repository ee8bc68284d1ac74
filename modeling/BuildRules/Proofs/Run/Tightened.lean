import BuildRules.Proofs.Lint.Tightened
import BuildRules.Proofs.Run.Inert

/-! Two runs of which one has stricter lints and both get the same answers. The strict one goes no
further than the lax one, and passes only what the lax one passes. -/
namespace BuildRules

/-- The same commands for the same stages, under lints that are at least as severe. -/
structure Policy.Tightens (strict lax : Policy) : Prop where
  toolchain : strict.toolchain = lax.toolchain
  aliases : strict.aliases = lax.aliases
  maxDepth : strict.maxDepth = lax.maxDepth
  stages : strict.stages = lax.stages
  lints : strict.lints.Tightens lax.lints

theorem Policy.Tightens.stageArguments {strict lax : Policy} (tightens : strict.Tightens lax)
    (stage : Stage) : strict.stageArguments stage = lax.stageArguments stage := by
  have resolver : strict.resolver = lax.resolver := by
    rw [resolver, resolver, Resolver.mk.injEq]
    exact ⟨tightens.aliases, tightens.maxDepth⟩
  rw [Policy.stageArguments, Policy.stageArguments, resolver]

namespace Runner

variable {strict lax : Runner}

/-- Runners under such policies, whose commands are answered alike by their number. -/
structure Tightens (strict lax : Runner) : Prop where
  policy : strict.policy.Tightens lax.policy
  answers : ∀ call command other,
    strict.world.executor call command = lax.world.executor call other

theorem exists_prepared_lax (tightens : strict.Tightens lax) {ordered : List Stage}
    {pending : List (Stage × Command)} {stopped : Option (Stage × ResolutionError)}
    (prepared : strict.prepare ordered = (pending, stopped)) :
    ∃ others, lax.prepare ordered = (others, stopped) ∧ List.Forall₂ SameArguments pending others :=
  exists_prepared tightens.policy.toolchain tightens.policy.stageArguments prepared

theorem Tightens.orders_iff (tightens : strict.Tightens lax) {requested : Option (List Stage)}
    {ordered : List Stage} : strict.Orders requested ordered ↔ lax.Orders requested ordered := by
  cases requested with
  | none => rw [Orders, Orders, tightens.policy.stages]
  | some stages => exact Iff.rfl

/-- What breaks a lax run breaks a strict one. -/
theorem breaks_tightened (tightens : strict.Tightens lax) {response : Response}
    (breaks : lax.Breaks response) : strict.Breaks response := by
  cases response with
  | error interruption => exact trivial
  | ok result =>
    rcases breaks with code | denies
    · exact .inl code
    · have scans := LintPolicy.scan_tightened tightens.policy.lints
        (result.output ++ "\n" ++ result.diagnostics)
      obtain ⟨violation, scanned, denied⟩ := (LintPolicy.exists_denied_iff ..).mpr denies
      obtain ⟨severer, found, tighter⟩ := exists_of_forall₂ scans.flip scanned
      exact .inr ((LintPolicy.exists_denied_iff ..).mp
        ⟨severer, found, tighter.severity.denies denied⟩)

theorem success_tightened (tightens : strict.Tightens lax) {step other : Step}
    (same : step.response = other.response) (success : (step.outcome strict).status = .success) :
    (other.outcome lax).status = .success := by
  rw [Step.success_iff_not_breaks] at success ⊢
  intro breaks
  exact success (same ▸ breaks_tightened tightens breaks)

/-- The arguments of the commands that were started. -/
def argumentsOf (steps : List Step) : List (List String) :=
  steps.map fun step => step.command.arguments

def AllPass (runner : Runner) (steps : List Step) : Prop :=
  ∀ step ∈ steps, (step.outcome runner).status = .success

/-- Steps of two runs at the same call, and at the same times if both clocks are the same. -/
structure Step.Matches (timed : Prop) (step other : Step) : Prop where
  stage : step.stage = other.stage
  arguments : step.command.arguments = other.command.arguments
  response : step.response = other.response
  times : timed → step.started = other.started ∧ step.finished = other.finished

theorem Step.Matches.alike {step other : Step} (same : step.Matches True other) :
    step.Alike other :=
  ⟨same.stage, same.arguments, (same.times trivial).1, (same.times trivial).2, same.response⟩

/-- The strict course is the beginning of the lax one, and all of it if no step of it fails. -/
theorem course_tightened (tightens : strict.Tightens lax) {pending others : List (Stage × Command)}
    (parts : List.Forall₂ SameArguments pending others) (timed : Prop)
    (calls readings laxReadings : Nat)
    (clocks : timed → strict.world.clock = lax.world.clock ∧ readings = laxReadings) :
    ∃ front rest, lax.course calls laxReadings others = front ++ rest ∧
      List.Forall₂ (Step.Matches timed) (strict.course calls readings pending) front ∧
      (strict.AllPass (strict.course calls readings pending) →
        rest = [] ∧ lax.AllPass (lax.course calls laxReadings others)) := by
  induction parts generalizing calls readings laxReadings with
  | nil => exact ⟨[], [], rfl, .nil, fun _ => ⟨rfl, List.forall_mem_nil _⟩⟩
  | @cons entry other pending others head _ ih =>
    obtain ⟨stage, command⟩ := entry
    obtain ⟨_, otherCommand⟩ := other
    obtain ⟨rfl, same⟩ := head
    obtain ⟨step, first⟩ : ∃ step, step = strict.step calls readings stage command := ⟨_, rfl⟩
    obtain ⟨laxStep, laxFirst⟩ :
        ∃ laxStep, laxStep = lax.step calls laxReadings stage otherCommand := ⟨_, rfl⟩
    -- both courses are at the same call, however many readings of its clock each has behind it
    have together : step.Matches timed laxStep := by
      rw [first, laxFirst]
      refine ⟨rfl, same, tightens.answers calls command otherCommand, ?_⟩
      intro holds
      obtain ⟨clock, rfl⟩ := clocks holds
      exact ⟨congrFun clock readings, congrFun clock (readings + 1)⟩
    rw [course_cons, course_cons, ← first, ← laxFirst]
    by_cases success : (step.outcome strict).status = .success
    · have passing := success_tightened tightens together.response success
      obtain ⟨front, rest, split, steps, whole⟩ := ih (calls + 1) (readings + 2) (laxReadings + 2)
        fun holds => ⟨(clocks holds).1, congrArg (· + 2) (clocks holds).2⟩
      rw [if_pos success, if_pos passing]
      refine ⟨laxStep :: front, rest, congrArg _ split, .cons together steps, ?_⟩
      intro each
      obtain ⟨none_left, successes⟩ := whole (List.forall_mem_cons.mp each).2
      exact ⟨none_left, List.forall_mem_cons.mpr ⟨passing, successes⟩⟩
    · rw [if_neg success]
      refine ⟨[laxStep], _, rfl, .cons together .nil, ?_⟩
      intro each
      exact absurd (each step List.mem_cons_self) success

theorem argumentsOf_matches {timed : Prop} {steps others : List Step}
    (same : List.Forall₂ (Step.Matches timed) steps others) :
    argumentsOf steps = argumentsOf others := by
  induction same with
  | nil => rfl
  | cons head _ ih =>
    rw [argumentsOf, argumentsOf, List.map_cons, List.map_cons, head.arguments]
    exact congrArg _ ih

theorem alike_of_matches {steps others : List Step}
    (same : List.Forall₂ (Step.Matches True) steps others) :
    List.Forall₂ Step.Alike steps others := same.imp fun _ _ => Step.Matches.alike

/-- The run ended at the stage of an index. -/
def FailsAt (after : Progress) (index : Nat) : Prop :=
  after.state = .stageFailed ∧ after.current = some index

section Ending

variable {runner : Runner} {before after : Progress} {result : RunResult}
  {pending : List (Stage × Command)}

theorem ok_iff_allPass (leaves : runner.Leaves before
      (runner.course before.commands.length before.readings pending) result after) :
    result.outcome.ok = true ↔
      runner.AllPass (runner.course before.commands.length before.readings pending) := by
  rw [leaves.outcome]
  rcases course_cases runner before.commands.length before.readings pending with
    ⟨-, each⟩ | ⟨front, last, shape, each, failed⟩
  · rw [ending_of_successes runner each 0]
    exact ⟨fun _ => each, fun _ => rfl⟩
  · rw [shape, ending_of_failure runner each failed 0]
    constructor
    · intro ok
      cases ok
    · intro every
      exact absurd (every last (by simp)) failed

/-- A run fails at the last of its steps. -/
theorem failsAt_iff_length (leaves : runner.Leaves before
      (runner.course before.commands.length before.readings pending) result after) (index : Nat) :
    FailsAt after index ↔
      ¬ runner.AllPass (runner.course before.commands.length before.readings pending) ∧
      (runner.course before.commands.length before.readings pending).length = index + 1 := by
  rw [FailsAt, leaves.state, leaves.current]
  rcases course_cases runner before.commands.length before.readings pending with
    ⟨-, each⟩ | ⟨front, last, shape, each, failed⟩
  · rw [ending_of_successes runner each 0]
    constructor
    · rintro ⟨state, -⟩
      cases state
    · rintro ⟨broken, -⟩
      exact absurd each broken
  · have broken : ¬ runner.AllPass (front ++ [last]) :=
      fun every => failed (every last (by simp))
    rw [shape, ending_of_failure runner each failed 0, List.length_append]
    simp [broken]

end Ending

/-- A strict run beside a lax one: no further command, no success of its own, no later failure. -/
structure Bounded (strictResult laxResult : RunResult) (strictAfter laxAfter : Progress) :
    Prop where
  calls : strictAfter.commands.map Command.arguments <+: laxAfter.commands.map Command.arguments
  passes : strictResult.outcome.ok = true → laxResult.outcome.ok = true ∧
    strictAfter.commands.map Command.arguments = laxAfter.commands.map Command.arguments
  fails : ∀ index, FailsAt laxAfter index → ∃ earlier ≤ index, FailsAt strictAfter earlier

section Runs

variable {strictBefore strictAfter laxBefore laxAfter : Progress}
  {strictResult laxResult : RunResult}

theorem bounded_of_leaves (tightens : strict.Tightens lax) {pending others : List (Stage × Command)}
    (parts : List.Forall₂ SameArguments pending others)
    (unused : strictBefore.commands = [] ∧ laxBefore.commands = [])
    (leaves : strict.Leaves strictBefore
      (strict.course strictBefore.commands.length strictBefore.readings pending) strictResult
      strictAfter)
    (laxLeaves : lax.Leaves laxBefore
      (lax.course laxBefore.commands.length laxBefore.readings others) laxResult laxAfter) :
    Bounded strictResult laxResult strictAfter laxAfter := by
  have counted : laxBefore.commands.length = strictBefore.commands.length := by
    rw [unused.1, unused.2]
  rw [counted] at laxLeaves
  obtain ⟨front, rest, split, same, whole⟩ := course_tightened tightens parts False
    strictBefore.commands.length strictBefore.readings laxBefore.readings False.elim
  have calls : strictAfter.commands.map Command.arguments = argumentsOf
      (strict.course strictBefore.commands.length strictBefore.readings pending) := by
    rw [leaves.calls, unused.1, List.nil_append, List.map_map]
    rfl
  have laxCalls : laxAfter.commands.map Command.arguments = argumentsOf
      (lax.course strictBefore.commands.length laxBefore.readings others) := by
    rw [laxLeaves.calls, unused.2, List.nil_append, List.map_map]
    rfl
  rw [← counted] at laxLeaves
  have begun := argumentsOf_matches same
  rw [split, argumentsOf, List.map_append] at laxCalls
  refine ⟨⟨argumentsOf rest, ?_⟩, ?_, ?_⟩
  · rw [calls, laxCalls, begun]
    rfl
  · intro ok
    obtain ⟨rfl, each⟩ := whole ((ok_iff_allPass leaves).mp ok)
    refine ⟨(ok_iff_allPass laxLeaves).mpr (counted ▸ each), ?_⟩
    rw [calls, laxCalls, begun]
    exact (List.append_nil _).symm
  · intro index fails
    obtain ⟨broken, length⟩ := (failsAt_iff_length laxLeaves index).mp fails
    rw [counted] at broken length
    -- the strict run breaks off too, at its last step; it has no more steps than the lax one
    have strictly : ¬ strict.AllPass _ := fun each => broken (whole each).2
    rw [split, List.length_append, ← same.length_eq] at length
    have begun : 0 < (strict.course strictBefore.commands.length strictBefore.readings
        pending).length := by
      apply List.length_pos_iff.mpr
      intro empty
      rw [empty] at strictly
      exact strictly (List.forall_mem_nil _)
    exact ⟨_, by omega, (failsAt_iff_length leaves _).mpr ⟨strictly, (Nat.sub_add_cancel begun).symm⟩⟩

end Runs

section Runs

variable {requested : Option (List Stage)} {strictId laxId : String}
  {strictManifest laxManifest manifest : Option Manifest}

theorem bounded_of_returns (tightens : strict.Tightens lax)
    {strictResult laxResult : RunResult} {strictAfter laxAfter : Progress}
    (ran : Returns (strict.run requested) (.start strictId strictManifest) strictResult strictAfter)
    (laxRan : Returns (lax.run requested) (.start laxId laxManifest) laxResult laxAfter) :
    Bounded strictResult laxResult strictAfter laxAfter := by
  obtain ⟨fresh, distinct⟩ := distinct_of_returns ran
  have laxFresh := (distinct_of_returns laxRan).1
  obtain ⟨ordered, orders⟩ := exists_orders strict distinct
  have laxOrders := tightens.orders_iff.mp orders
  rcases prepared : strict.prepare ordered with ⟨pending, _ | ⟨stage, error⟩⟩
  · obtain ⟨others, laxPrepared, parts⟩ := exists_prepared_lax tightens prepared
    rcases (run_carries fresh orders prepared).at_returns ran with ⟨-, ok, rfl⟩ |
      ⟨fault, calls, -, raised, -⟩
    case inr => cases raised
    rcases (run_carries laxFresh laxOrders laxPrepared).at_returns laxRan with ⟨-, laxOk, rfl⟩ |
      ⟨fault, calls, -, raised, -⟩
    case inr => cases raised
    cases ok
    cases laxOk
    exact bounded_of_leaves tightens parts ⟨rfl, rfl⟩ (leaves_carried strict _ _).of_warned
      (leaves_carried lax _ _).of_warned
  · obtain ⟨others, laxPrepared, parts⟩ := exists_prepared_lax tightens prepared
    rcases (run_declines fresh orders prepared).at_returns ran with ⟨-, ok, rfl⟩ |
      ⟨-, fault, raised, -⟩
    case inr => cases raised
    rcases (run_declines laxFresh laxOrders laxPrepared).at_returns laxRan with ⟨-, laxOk, rfl⟩ |
      ⟨-, fault, raised, -⟩
    case inr => cases raised
    cases ok
    cases laxOk
    refine ⟨List.prefix_rfl, nofun, ?_⟩
    rintro index ⟨-, current⟩
    refine ⟨index, le_rfl, rfl, ?_⟩
    rw [← current]
    exact congrArg some parts.length_eq

/-- With one clock and one manifest for both, the strict run is broken off where the lax one is. -/
theorem started_tightened (tightens : strict.Tightens lax)
    (clock : strict.world.clock = lax.world.clock) :
    (strict.started requested (.start strictId manifest)).map Command.arguments <+:
      (lax.started requested (.start laxId manifest)).map Command.arguments := by
  have fresh (id : String) : (Progress.start id manifest).state = .pending := rfl
  by_cases distinct : ∀ stages, requested = some stages → Stage.Distinct stages
  case neg =>
    push Not at distinct
    obtain ⟨stages, rfl, repeated⟩ := distinct
    rw [started_of_repeated (fresh strictId) repeated, started_of_repeated (fresh laxId) repeated]
    exact List.prefix_rfl
  obtain ⟨ordered, orders⟩ := exists_orders strict distinct
  have laxOrders := tightens.orders_iff.mp orders
  rcases prepared : strict.prepare ordered with ⟨pending, _ | ⟨stage, error⟩⟩
  · obtain ⟨others, laxPrepared, parts⟩ := exists_prepared_lax tightens prepared
    obtain ⟨front, rest, split, same, -⟩ :=
      course_tightened tightens parts True 0 0 0 fun _ => ⟨clock, rfl⟩
    have begun := attempted_twins strict lax (alike_of_matches same) manifest.isSome
    obtain ⟨later, whole⟩ := attempted_append lax manifest.isSome front rest
    have attempts : (strict.attempted manifest.isSome (strict.course 0 0 pending)).map
          (·.command.arguments) <+:
        (lax.attempted manifest.isSome (lax.course 0 0 others)).map (·.command.arguments) := by
      rw [begun, split, ← whole, List.map_append]
      exact List.prefix_append ..
    rw [started_of_prepared (fresh strictId) orders prepared,
      started_of_prepared (fresh laxId) laxOrders laxPrepared, List.map_append, List.map_append,
      List.map_map, List.map_map]
    exact attempts
  · obtain ⟨others, laxPrepared, -⟩ := exists_prepared_lax tightens prepared
    rw [started_of_unprepared (fresh strictId) orders prepared,
      started_of_unprepared (fresh laxId) laxOrders laxPrepared]
    exact List.prefix_rfl

/-- What the closing of a lax run reads has been read, or is read by the next step. -/
theorem passable_tightened {before : Progress} {steps front rest : List Step}
    {others : List (Stage × Command)} (clock : strict.world.clock = lax.world.clock)
    (split : lax.course before.commands.length before.readings others = front ++ rest)
    (same : List.Forall₂ Step.Alike steps front)
    (passable : lax.Passable before (lax.course before.commands.length before.readings others)) :
    strict.Passable before steps := by
  obtain ⟨clear, closes⟩ := passable
  rw [split] at clear closes
  refine ⟨?_, ?_⟩
  · intro step member
    obtain ⟨other, present, alike⟩ := exists_of_forall₂ same member
    exact (alike.clear_iff strict lax _).mpr (clear other (List.mem_append_left rest present))
  · intro held
    rw [clock, same.length_eq]
    cases rest with
    | nil => simpa using closes held
    | cons next later =>
      have place : (lax.course before.commands.length before.readings others)[front.length]? =
          some next := by
        rw [split]
        simp
      have started : next.started = lax.world.clock (before.readings + 2 * front.length) := by
        rw [course_getElem? place]
        rfl
      rw [← started]
      exact (clear next (by simp)).begins held

theorem unhindered_tightened (tightens : strict.Tightens lax)
    (clock : strict.world.clock = lax.world.clock)
    (unhindered : lax.Unhindered requested (.start laxId manifest)) :
    strict.Unhindered requested (.start strictId manifest) := by
  refine ⟨rfl, unhindered.distinct, fun ordered orders => ?_⟩
  have free := unhindered.free ordered (tightens.orders_iff.mp orders)
  rcases prepared : strict.prepare ordered with ⟨pending, _ | ⟨stage, error⟩⟩
  · obtain ⟨others, laxPrepared, parts⟩ := exists_prepared_lax tightens prepared
    obtain ⟨front, rest, split, same, -⟩ :=
      course_tightened tightens parts True 0 0 0 fun _ => ⟨clock, rfl⟩
    rw [laxPrepared] at free
    have passable : strict.Passable (.start laxId manifest) (strict.course 0 0 pending) :=
      passable_tightened clock split (alike_of_matches same) free
    exact ⟨passable.clear, passable.closes⟩
  · obtain ⟨others, laxPrepared, -⟩ := exists_prepared_lax tightens prepared
    rw [laxPrepared] at free
    have refusable : strict.Refusable (.start laxId manifest) stage :=
      Refusable.of_clock clock.symm free
    exact ⟨refusable.readable, refusable.fails, refusable.closes⟩

/-- Where a strict run succeeds, the lax one has the same steps before it. -/
theorem unhindered_of_success (tightens : strict.Tightens lax)
    (clock : strict.world.clock = lax.world.clock) {result : RunResult} {after : Progress}
    (ran : Returns (strict.run requested) (.start strictId manifest) result after)
    (ok : result.outcome.ok = true) : lax.Unhindered requested (.start laxId manifest) := by
  obtain ⟨fresh, distinct⟩ := distinct_of_returns ran
  refine ⟨rfl, distinct, fun ordered laxOrders => ?_⟩
  have orders := tightens.orders_iff.mpr laxOrders
  rcases prepared : strict.prepare ordered with ⟨pending, _ | ⟨stage, error⟩⟩
  · obtain ⟨others, laxPrepared, parts⟩ := exists_prepared_lax tightens prepared
    obtain ⟨front, rest, split, same, whole⟩ :=
      course_tightened tightens parts True 0 0 0 fun _ => ⟨clock, rfl⟩
    rcases (run_carries fresh orders prepared).at_returns ran with ⟨passable, given, rfl⟩ |
      ⟨fault, calls, -, raised, -⟩
    case inr => cases raised
    cases given
    have leaves := (leaves_carried strict (strict.warned (.start strictId manifest))
      (strict.course 0 0 pending)).of_warned
    obtain ⟨rfl, -⟩ := whole ((ok_iff_allPass leaves).mp ok)
    have alike := alike_of_matches same
    have laxPassable : lax.Passable (.start strictId manifest) front :=
      passable.of_alike clock alike
    rw [List.append_nil] at split
    rw [laxPrepared]
    have here : lax.Passable (.start laxId manifest) (lax.course 0 0 others) := by
      rw [split]
      exact ⟨laxPassable.clear, laxPassable.closes⟩
    exact here
  · rcases (run_declines fresh orders prepared).at_returns ran with ⟨-, given, rfl⟩ |
      ⟨-, fault, raised, -⟩
    · cases given
      cases ok
    · cases raised

end Runs

/-- Of two runs whose lints differ in severity only, and whose commands are answered alike by
their number, the strict one starts the first commands of the lax one; it succeeds only if the lax
one does, with the same commands; and it fails no later. With one clock and one manifest the lax
run gives a result where the strict one succeeds, the strict run gives one where the lax one does,
and it starts no more however both end. -/
theorem run_of_tightened (tightens : strict.Tightens lax) (requested : Option (List Stage))
    (strictId laxId : String) (strictManifest laxManifest : Option Manifest) :
    (∀ strictResult strictAfter laxResult laxAfter,
      Returns (strict.run requested) (.start strictId strictManifest) strictResult strictAfter →
      Returns (lax.run requested) (.start laxId laxManifest) laxResult laxAfter →
      Bounded strictResult laxResult strictAfter laxAfter) ∧
    (strict.world.clock = lax.world.clock → strictManifest = laxManifest →
      (strict.started requested (.start strictId strictManifest)).map Command.arguments <+:
          (lax.started requested (.start laxId laxManifest)).map Command.arguments ∧
        ((∃ laxResult laxAfter,
            Returns (lax.run requested) (.start laxId laxManifest) laxResult laxAfter) →
          ∃ strictResult strictAfter, Returns (strict.run requested)
            (.start strictId strictManifest) strictResult strictAfter) ∧
        ((∃ strictResult strictAfter, Returns (strict.run requested)
            (.start strictId strictManifest) strictResult strictAfter ∧
            strictResult.outcome.ok = true) →
          ∃ laxResult laxAfter,
            Returns (lax.run requested) (.start laxId laxManifest) laxResult laxAfter)) ∧
    ((∃ strictResult strictAfter,
        Returns (strict.run requested) (.start strictId strictManifest) strictResult strictAfter) ↔
      strict.Unhindered requested (.start strictId strictManifest)) ∧
    ((∃ laxResult laxAfter,
        Returns (lax.run requested) (.start laxId laxManifest) laxResult laxAfter) ↔
      lax.Unhindered requested (.start laxId laxManifest)) := by
  refine ⟨fun _ _ _ _ ran laxRan => bounded_of_returns tightens ran laxRan, ?_,
    returns_iff_unhindered, returns_iff_unhindered⟩
  rintro clock rfl
  refine ⟨started_tightened tightens clock, ?_, ?_⟩
  · rw [returns_iff_unhindered, returns_iff_unhindered]
    exact unhindered_tightened tightens clock
  · rintro ⟨result, after, ran, ok⟩
    exact returns_iff_unhindered.mpr (unhindered_of_success tightens clock ran ok)

/-- One lint, which the output of the first command notes; the second command fails. -/
def noting (severity : Severity) : Runner where
  policy := { Policy.bare "cargo" with lints := ⟨[⟨"dead_code", severity, false⟩]⟩ }
  environment := .empty
  directory := none
  world :=
    { executor := fun call _ =>
        if call = 0 then
          .ok ⟨0, "", "= note: requested on the command line with `-W dead-code`"⟩
        else .ok ⟨1, "", ""⟩
      clock := fun _ => .dawn false none
      logTime := fun _ => .dawn false none }

theorem noting_of_tightened : (noting .deny).Tightens (noting .warn) ∧
    ∃ strictResult strictAfter laxResult laxAfter,
      Returns ((noting .deny).run (some [⟨"build", 0, none, ["build"]⟩, ⟨"test", 1, none, ["test"]⟩]))
        (.start "run-1" none) strictResult strictAfter ∧
      Returns ((noting .warn).run (some [⟨"build", 0, none, ["build"]⟩, ⟨"test", 1, none, ["test"]⟩]))
        (.start "run-2" none) laxResult laxAfter ∧
      Bounded strictResult laxResult strictAfter laxAfter := by
  have tightens : (noting .deny).Tightens (noting .warn) :=
    ⟨⟨rfl, rfl, rfl, rfl, .cons ⟨rfl, .raised⟩ .nil⟩, fun _ _ _ => rfl⟩
  have distinct : ∀ stages,
      some [⟨"build", 0, none, ["build"]⟩, ⟨"test", 1, none, ["test"]⟩] = some stages →
        Stage.Distinct stages := by
    rintro stages ⟨⟩
    exact ⟨by decide, by decide⟩
  have tells (call : Nat) (command : Command) :
      Tells ((noting .warn).world.executor call command) := by
    have failing : Number.isShort 1 = true := by decide
    by_cases first : call = 0 <;> simp [noting, first, Tells, failing]
  have unhindered : (noting .warn).Unhindered
      (some [⟨"build", 0, none, ["build"]⟩, ⟨"test", 1, none, ["test"]⟩]) (.start "run-2" none) :=
    (unhindered_iff_spoken rfl distinct (fun _ _ => rfl) (by rintro _ ⟨⟩)).mpr
      (spoken_of_tells _ _ tells)
  obtain ⟨bounded, together, -, returns⟩ := run_of_tightened tightens
    (some [⟨"build", 0, none, ["build"]⟩, ⟨"test", 1, none, ["test"]⟩]) "run-1" "run-2" none none
  obtain ⟨laxResult, laxAfter, laxRan⟩ := returns.mpr unhindered
  obtain ⟨-, both, -⟩ := together rfl rfl
  obtain ⟨strictResult, strictAfter, ran⟩ := both ⟨_, _, laxRan⟩
  exact ⟨tightens, _, _, _, _, ran, laxRan, bounded _ _ _ _ ran laxRan⟩

end Runner
end BuildRules
