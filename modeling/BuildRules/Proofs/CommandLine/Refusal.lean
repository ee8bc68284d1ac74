import BuildRules.CommandLine.Session
import BuildRules.Proofs.Returns

namespace BuildRules.CommandLine

/-- Commands that look at the vendored directory before they start. -/
def Subcommand.verifies : Subcommand → Bool
  | .run .. | .resolve _ | .ci _ => true
  | .lints | .cargoConfig | .doctor => false

def Setting.checkOf (setting : Setting) (command : Subcommand) : Policy.VendorCheck :=
  if command.verifies then .verified setting.files setting.files.current else .declared

namespace Session

variable {setting : Setting} {arguments : Arguments} {config : Value} {policy : Policy}
  {interrupt : Interrupt} {trace : Trace} {α β : Type}

theorem stops_load {error : Config.LoadError}
    (refused : Config.load setting.yaml setting.files arguments.config arguments.local_ =
      .error error)
    (verify : Bool) (trace : Trace) :
    Stops (loadPolicy setting arguments verify) trace (.load error) trace :=
  Stops.andThen (Stops.lift (by rw [refused]; rfl) trace)

theorem returns_load
    (read : Config.load setting.yaml setting.files arguments.config arguments.local_ = .ok config)
    (trace : Trace) :
    Returns (raise .load (Config.load setting.yaml setting.files arguments.config
      arguments.local_)) trace config trace :=
  Returns.lift (by rw [read]; rfl) trace

theorem stops_loadPolicy
    (read : Config.load setting.yaml setting.files arguments.config arguments.local_ = .ok config)
    {error : PolicyError}
    (refused : Policy.load (setting.checkOf arguments.command) config = .error error)
    (trace : Trace) :
    Stops (loadPolicy setting arguments arguments.command.verifies) trace (.policy error)
      trace :=
  Stops.following (returns_load read trace)
    (Stops.lift (by rw [← Setting.checkOf, refused]; rfl) trace)

theorem returns_loadPolicy
    (read : Config.load setting.yaml setting.files arguments.config arguments.local_ = .ok config)
    (loaded : Policy.load (setting.checkOf arguments.command) config = .ok policy)
    (trace : Trace) :
    Returns (loadPolicy setting arguments arguments.command.verifies) trace policy trace :=
  Returns.andThen (returns_load read trace)
    (Returns.lift (by rw [← Setting.checkOf, loaded]; rfl) trace)

/-- Every command loads the policy first. -/
theorem stops_perform
    (stopped : Stops (loadPolicy setting arguments arguments.command.verifies) trace interrupt
      trace) :
    Stops (perform setting arguments) trace interrupt trace := by
  rw [perform]
  split
  all_goals
    next named =>
      rw [named] at stopped
      exact stopped.andThen

/-- The action gives a value and at most adds to the diagnostics. -/
def Tells (action : Session α) (value : α) : Prop :=
  ∀ trace, ∃ diagnostics, Returns action trace value { trace with diagnostics }

namespace Tells

theorem done (value : α) : Tells (pure value : Session α) value := fun _ => ⟨_, rfl⟩

theorem warn (line : String) : Tells (warn line) () := fun _ => ⟨_, rfl⟩

theorem andThen {action : Session α} {next : α → Session β} {value : α} {result : β}
    (first : Tells action value) (rest : Tells (next value) result) :
    Tells (action >>= next) result := by
  intro trace
  obtain ⟨diagnostics, ran⟩ := first trace
  obtain ⟨later, ended⟩ := rest { trace with diagnostics }
  exact ⟨later, ran.andThen ended⟩

theorem warnHint (hint : Option String) : Tells (warnHint hint) () := by
  cases hint with
  | none => exact done ()
  | some text =>
    rw [Session.warnHint]
    split
    · exact done ()
    · exact warn _

theorem endConfiguration (message : String) : Tells (endConfiguration message) 2 :=
  (warn _).andThen ((warn _).andThen (done 2))

theorem endResolution (message : String) (hint : Option String) :
    Tells (endResolution message hint) 2 :=
  (warn _).andThen ((warnHint hint).andThen (done 2))

theorem endLaunch {failure : Failure} (kind : failure.kind = .launch) :
    Tells (endCommand failure) 127 := by
  rw [endCommand, kind]
  exact (warn _).andThen ((warnHint failure.hint).andThen (done 127))

theorem endCancelled {failure : Failure} (kind : failure.kind = .cancelled) :
    Tells (endCommand failure) 130 := by
  rw [endCommand, kind]
  exact (warn _).andThen (done 130)

end Tells

end Session

variable {setting : Setting} {line : List String} {arguments : Arguments}

theorem call_of_returns {code : Int} {after : Trace}
    (parsed : Arguments.parse line = .ok arguments)
    (ran : Returns (Session.perform setting arguments) (.start setting.files) code after) :
    call setting line = (.finished code, after) := by
  have ended : Returns (tryCatch (Session.perform setting arguments) Session.close)
      (.start setting.files) code after := ran.uncaught
  rw [Returns] at ended
  simp only [call, parsed]
  rw [ended]

/-- What stops the command of a call gives it its code, and says why. -/
theorem call_of_stops {interrupt : Interrupt} {code : Int} {after : Trace}
    (parsed : Arguments.parse line = .ok arguments)
    (stopped : Stops (Session.perform setting arguments) (.start setting.files) interrupt after)
    (told : Session.Tells (Session.close interrupt) code) :
    ∃ diagnostics, call setting line = (.finished code, { after with diagnostics }) := by
  obtain ⟨diagnostics, closed⟩ := told after
  have ended : Returns (tryCatch (Session.perform setting arguments) Session.close)
      (.start setting.files) code { after with diagnostics } := stopped.caught closed
  refine ⟨diagnostics, ?_⟩
  rw [Returns] at ended
  simp only [call, parsed]
  rw [ended]

/-- What stops the command of a call before anything is started or written ends it with exit
code 2. -/
theorem call_of_early_stop {interrupt : Interrupt} {after : Trace}
    (parsed : Arguments.parse line = .ok arguments)
    (stopped : Stops (Session.perform setting arguments) (.start setting.files) interrupt after)
    (told : Session.Tells (Session.close interrupt) 2) (unstarted : after.commands = [])
    (unwritten : after.files = setting.files) :
    (call setting line).1 = .finished 2 ∧ (call setting line).2.commands = [] ∧
      (call setting line).2.files = setting.files := by
  obtain ⟨diagnostics, ended⟩ := call_of_stops parsed stopped told
  rw [ended]
  exact ⟨rfl, unstarted, unwritten⟩

def Subcommand.alias? : Subcommand → Option String
  | .run name _ | .resolve name => some name
  | _ => none

/-- What keeps a call from starting anything. -/
inductive Refused (setting : Setting) (arguments : Arguments) : Prop
  | unread {error : ConfigError}
      (failed : Config.load setting.yaml setting.files arguments.config arguments.local_ =
        .error (.config error))
  | invalid {config : Value} {error : ConfigError}
      (read : Config.load setting.yaml setting.files arguments.config arguments.local_ = .ok config)
      (failed : Policy.load (setting.checkOf arguments.command) config = .error (.config error))
  | unresolved {config : Value} {policy : Policy} {name : String} {error : ResolutionError}
      (read : Config.load setting.yaml setting.files arguments.config arguments.local_ = .ok config)
      (loaded : Policy.load (setting.checkOf arguments.command) config = .ok policy)
      (asked : arguments.command.alias? = some name)
      (failed : policy.resolver.resolve name = .error error)

inductive Answered : Response → Int → Prop
  | result (result : CommandResult) : Answered (.ok result) result.code
  | unlaunched {failure : Failure} (kind : failure.kind = .launch) :
      Answered (.error (.failure failure)) 127
  | cancelled {failure : Failure} (kind : failure.kind = .cancelled) :
      Answered (.error (.failure failure)) 130

/-- Nothing but its launch and its operator keeps a command from a result. -/
def Launching (executor : Executor) : Prop :=
  ∀ number command interruption, executor number command = .error interruption →
    ∃ failure, interruption = .failure failure ∧
      (failure.kind = .launch ∨ failure.kind = .cancelled)

theorem call_of_refused (parsed : Arguments.parse line = .ok arguments)
    (refused : Refused setting arguments) :
    (call setting line).1 = .finished 2 ∧ (call setting line).2.commands = [] ∧
      (call setting line).2.files = setting.files := by
  cases refused with
  | unread failed =>
    have stopped := Session.stops_perform (Session.stops_load failed _ (.start setting.files))
    exact call_of_early_stop parsed stopped (.endConfiguration _) rfl rfl
  | invalid read failed =>
    have stopped := Session.stops_perform
      (Session.stops_loadPolicy read failed (.start setting.files))
    exact call_of_early_stop parsed stopped (.endConfiguration _) rfl rfl
  | @unresolved config policy name error read loaded asked failed =>
    have ready := Session.returns_loadPolicy read loaded (.start setting.files)
    cases named : arguments.command with
    | run other extra =>
      rw [named] at asked ready
      obtain rfl : other = name := Option.some.inj asked
      -- how the output is captured is settled before the alias is resolved
      have stopped : Stops (Session.perform setting arguments) (.start setting.files)
          (.resolution error) { Trace.start setting.files with captures := [false] } := by
        rw [Session.perform, named]
        refine .following ready (.following (Returns.change _ _) (.andThen (.lift ?_ _)))
        rw [Policy.aliasCommand, failed]
        rfl
      exact call_of_early_stop parsed stopped (.endResolution _ _) rfl rfl
    | resolve other =>
      rw [named] at asked ready
      obtain rfl : other = name := Option.some.inj asked
      have stopped : Stops (Session.perform setting arguments) (.start setting.files)
          (.resolution error) (.start setting.files) := by
        rw [Session.perform, named]
        refine .following ready (.andThen (.lift ?_ _))
        rw [failed]
        rfl
      exact call_of_early_stop parsed stopped (.endResolution _ _) rfl rfl
    | _ =>
      rw [named] at asked
      cases asked

theorem perform_of_resolved {config : Value} {policy : Policy} {name : String}
    {extra tokens : List String} {command : Command}
    (named : arguments.command = .run name extra)
    (read : Config.load setting.yaml setting.files arguments.config arguments.local_ = .ok config)
    (loaded : Policy.load (setting.checkOf arguments.command) config = .ok policy)
    (resolved : policy.resolver.resolve name = .ok tokens)
    (made : command = policy.command (Session.environmentOf setting policy)
      (some (Session.directory setting)) (tokens ++ extra)) :
    (ExceptT.run (Session.perform setting arguments)).run (.start setting.files) =
      (ExceptT.run (do
        let result ← Session.raise .command (setting.world.executor 0 command)
        return result.code)).run
        { Trace.start setting.files with captures := [false], commands := [command] } := by
  have ready := Session.returns_loadPolicy read loaded (.start setting.files)
  rw [named] at ready
  have resolves : (policy.aliasCommand (Session.environmentOf setting policy)
      (some (Session.directory setting)) name extra).mapError Interrupt.resolution =
        .ok command := by
    rw [Policy.aliasCommand, resolved, made]
    rfl
  rw [Session.perform, named]
  refine (ready.run_bind _).trans ?_
  refine ((Returns.change _ _).run_bind _).trans ?_
  exact ((Returns.lift resolves _).run_bind _).trans rfl

theorem exists_answered {failure : Failure}
    (kind : failure.kind = .launch ∨ failure.kind = .cancelled) :
    ∃ code, Answered (.error (.failure failure)) code ∧
      Session.Tells (Session.close (.command (.failure failure))) code := by
  rcases kind with launch | cancelled
  · exact ⟨127, .unlaunched launch, .endLaunch launch⟩
  · exact ⟨130, .cancelled cancelled, .endCancelled cancelled⟩

/-- An alias that resolves is run as one command, and its answer gives the exit code. -/
theorem call_of_resolved {config : Value} {policy : Policy} {name : String}
    {extra tokens : List String} (launching : Launching setting.world.executor)
    (parsed : Arguments.parse line = .ok arguments) (named : arguments.command = .run name extra)
    (read : Config.load setting.yaml setting.files arguments.config arguments.local_ = .ok config)
    (loaded : Policy.load (setting.checkOf arguments.command) config = .ok policy)
    (resolved : policy.resolver.resolve name = .ok tokens) :
    ∃ command code, (call setting line).2.commands = [command] ∧
      command.arguments = policy.toolchain :: (tokens ++ extra) ∧
      Answered (setting.world.executor 0 command) code ∧ (call setting line).1 = .finished code := by
  obtain ⟨command, made⟩ : ∃ command, command = policy.command
      (Session.environmentOf setting policy) (some (Session.directory setting))
      (tokens ++ extra) := ⟨_, rfl⟩
  have toolchain : command.arguments = policy.toolchain :: (tokens ++ extra) := by
    rw [made]
    rfl
  have begun := perform_of_resolved named read loaded resolved made
  cases answer : setting.world.executor 0 command with
  | ok result =>
    rw [answer] at begun
    have ended := call_of_returns parsed begun
    refine ⟨command, result.code, ?_, toolchain, ?_, ?_⟩
    · rw [ended]
    · rw [answer]
      exact .result result
    · rw [ended]
  | error interruption =>
    obtain ⟨failure, rfl, kind⟩ := launching 0 command interruption answer
    rw [answer] at begun
    obtain ⟨code, answered, told⟩ := exists_answered kind
    obtain ⟨diagnostics, ended⟩ := call_of_stops parsed begun told
    refine ⟨command, code, ?_, toolchain, ?_, ?_⟩
    · rw [ended]
    · rw [answer]
      exact answered
    · rw [ended]

/-- A call starts nothing and writes nothing when it is refused; `run` starts one command when it is
not, and ends with the code of that. -/
theorem call_starts_accepted (launching : Launching setting.world.executor)
    (parsed : Arguments.parse line = .ok arguments) :
    (Refused setting arguments →
      (call setting line).1 = .finished 2 ∧ (call setting line).2.commands = [] ∧
        (call setting line).2.files = setting.files) ∧
    ∀ name extra config policy tokens, arguments.command = .run name extra →
      Config.load setting.yaml setting.files arguments.config arguments.local_ = .ok config →
      Policy.load (setting.checkOf arguments.command) config = .ok policy →
      policy.resolver.resolve name = .ok tokens →
      ∃ command code, (call setting line).2.commands = [command] ∧
        command.arguments = policy.toolchain :: (tokens ++ extra) ∧
        Answered (setting.world.executor 0 command) code ∧
        (call setting line).1 = .finished code := by
  refine ⟨call_of_refused parsed, ?_⟩
  intro name extra config policy tokens named read loaded resolved
  exact call_of_resolved launching parsed named read loaded resolved

/-- A policy with one alias, under an executor that answers each command with code 3. -/
def building : Setting where
  files := ⟨[(["policy.yaml"], .file "aliases:\n  b: build\n")], ⟨"/", []⟩, fun _ => .all⟩
  vars := []
  world :=
    { executor := fun _ _ => .ok ⟨3, "", ""⟩
      clock := fun _ => ⟨0, none, by decide⟩
      logTime := fun _ => ⟨0, none, by decide⟩ }
  started := ⟨0, none, by decide⟩
  runId := "run-1"
  yaml := fun _ => .ok (.ofFields [("aliases", .ofFields [("b", .text "build")])])

theorem building_accepts : ∃ config policy,
    Config.load building.yaml building.files (some "policy.yaml") none = .ok config ∧
    Policy.load (building.checkOf (.run "b" ["--release"])) config = .ok policy ∧
    policy.toolchain = "cargo" ∧ policy.resolver.resolve "b" = .ok ["build"] := by
  have evaluated : (Config.load building.yaml building.files (some "policy.yaml")
      none).toOption.map (fun config =>
      (Policy.load (building.checkOf (.run "b" ["--release"])) config).toOption.map fun policy =>
        (policy.toolchain, (policy.resolver.resolve "b").toOption)) =
      some (some ("cargo", some ["build"])) := by decide +kernel
  obtain ⟨config, read, evaluated⟩ := Option.map_eq_some_iff.mp evaluated
  obtain ⟨policy, loaded, evaluated⟩ := Option.map_eq_some_iff.mp evaluated
  obtain ⟨toolchain, resolved⟩ := Prod.mk.inj evaluated
  exact ⟨config, policy, ok_of_toOption read, ok_of_toOption loaded, toolchain,
    ok_of_toOption resolved⟩

theorem building_starts_accepted : Launching building.world.executor ∧
    (call building ["--config", "absent.yaml", "doctor"]).1 = .finished 2 ∧
    (call building ["--config", "absent.yaml", "doctor"]).2.commands = [] ∧
    ∃ command, (call building ["--config", "policy.yaml", "run", "b", "--release"]).2.commands =
        [command] ∧ command.arguments = ["cargo", "build", "--release"] ∧
      (call building ["--config", "policy.yaml", "run", "b", "--release"]).1 = .finished 3 := by
  have launching : Launching building.world.executor := by
    rintro number command interruption ⟨⟩
  have unread : Arguments.parse ["--config", "absent.yaml", "doctor"] =
      .ok ⟨some "absent.yaml", none, false, .doctor⟩ := by decide +kernel
  have parsed : Arguments.parse ["--config", "policy.yaml", "run", "b", "--release"] =
      .ok ⟨some "policy.yaml", none, false, .run "b" ["--release"]⟩ := by decide +kernel
  obtain ⟨config, policy, read, loaded, toolchain, resolved⟩ := building_accepts
  have refused := (call_starts_accepted launching unread).1 (.unread rfl)
  obtain ⟨command, code, commands, arguments, answered, ended⟩ :=
    (call_starts_accepted launching parsed).2 "b" ["--release"] config policy ["build"] rfl read
      loaded resolved
  obtain rfl : code = 3 := by
    cases answered
    rfl
  rw [toolchain] at arguments
  exact ⟨launching, refused.1, refused.2.1, command, commands, arguments, ended⟩

end BuildRules.CommandLine
