import BuildRules.Proofs.Report.Failures
import BuildRules.Proofs.Run.History

/-! A stage that is started again goes on in the entry that it has. What the calls since then make
of an empty entry is laid over it, and whatever they do not write stays. -/
namespace BuildRules.Manifest

/-- Fields that the call writes, whatever it finds. -/
def Call.writes : Call → List String
  | started _ _ _ _ => ["stage", "ordinal", "argv", "status", "started_at"]
  | finished _ _ _ _ => ["status", "finished_at", "duration_ms", "returncode", "warnings"]
  | failed _ _ _ _ _ _ _ =>
    ["status", "finished_at", "duration_ms", "returncode", "warnings", "error"]
  | closed _ _ => []

def Call.isAbout (name : String) (call : Call) : Bool := call.stage? == some name

/-- Some of the calls is about the stage and writes the field. -/
def Writes (calls : List Call) (name field : String) : Prop :=
  ∃ call ∈ calls, call.stage? = some name ∧ field ∈ call.writes

def bare : Manifest := ⟨[], [], [], [], []⟩

variable {before after earlier alone : Manifest} {calls front back : List Call} {call : Call}
variable {name field : String} {fields payload : List (String × Value)}

theorem isAbout_iff : call.isAbout name = true ↔ call.stage? = some name := beq_iff_eq

section Entry

variable {entry other : Record}

theorem isSome_get?_update_ofFields (fields : List (String × Value)) (field : String) :
    (Record.get? (Entries.update [] (Record.ofFields fields)) field).isSome ↔
      field ∈ fields.map Prod.fst := by
  induction fields with
  | nil => simp
  | cons first fields ih =>
    obtain ⟨name, value⟩ := first
    rw [Record.get?_update_cons, Record.get?_update, Option.isSome_or, Bool.or_eq_true, ih,
      Record.get?_insert, List.map_cons, List.mem_cons]
    by_cases same : name = field
    · simp [same]
    · simp [same, Ne.symm same]

/-- Nothing but the ordinal and the start of an entry makes a difference to a call. -/
theorem Sets.congr (sets : Sets entry call fields payload)
    (start : Record.get? other "started_at" = Record.get? entry "started_at")
    (ordinal : (Record.get? other "ordinal").isSome = (Record.get? entry "ordinal").isSome) :
    Sets other call fields payload := by
  cases sets with
  | started listed => exact .started listed
  | finished listed measured => exact .finished listed ((durationFrom_congr start).trans measured)
  | failed listed measured =>
    rw [missingOrdinal, ← ordinal]
    exact .failed listed ((durationFrom_congr start).trans measured)

/-- A call that finds an ordinal sets what it writes. -/
theorem Sets.writes (sets : Sets entry call fields payload)
    (numbered : (Record.get? entry "ordinal").isSome) : fields.map Prod.fst = call.writes := by
  cases sets with
  | started => rfl
  | finished => rfl
  | failed =>
    rw [missingOrdinal, numbered, Bool.or_true]
    rfl

end Entry

theorem get?_entryOf_bare (name field : String) :
    Record.get? (bare.entryOf name) field = none := rfl

/-- A stage with a field in its entry has that entry. -/
theorem find?_of_known {known : String}
    (present : (Record.get? (before.entryOf name) known).isSome) :
    Entries.find? before.stages (.text name) = some (before.entryOf name) := by
  rw [entryOf] at present ⊢
  cases found : Entries.find? before.stages (.text name) with
  | none =>
    rw [found] at present
    cases present
  | some entry => rfl

/-- In an entry with a field, whatever the call sets is laid over what was there. -/
theorem get?_entryOf_recorded_of_known {known : String}
    (present : (Record.get? (before.entryOf name) known).isSome) (field : String) :
    Record.get? ((before.recorded call name fields payload).entryOf name) field =
      (Record.get? (Entries.update [] (Record.ofFields fields)) field).or
        (Record.get? (before.entryOf name) field) := by
  have kept : (before.ensured name call.base).entryOf name = before.entryOf name := by
    rw [entryOf_ensured, find?_of_known present]
    rfl
  rw [recorded, entryOf_noted, entryOf_updated, Record.get?_update, kept]

/-- The entry of a stage, with what the calls make of it on their own laid over what it was
earlier. -/
structure LaidOver (name : String) (calls : List Call) (earlier alone after : Manifest) :
    Prop where
  laid : ∀ field, Record.get? (after.entryOf name) field =
    (Record.get? (alone.entryOf name) field).or (Record.get? (earlier.entryOf name) field)
  written : ∀ field, (Record.get? (alone.entryOf name) field).isSome ↔ Writes calls name field

theorem writes_append : Writes (calls ++ [call]) name field ↔
    Writes calls name field ∨ call.stage? = some name ∧ field ∈ call.writes := by
  simp [Writes, or_and_right, exists_or]

/-- A start is laid over whatever was there. -/
theorem laidOver_started {ordinal arguments : Value} {time : Timestamp}
    (ran : Returns (Call.started name ordinal arguments time).perform earlier () after) :
    ∃ alone, Returns (Call.started name ordinal arguments time).perform bare () alone ∧
      LaidOver name [.started name ordinal arguments time] earlier alone after := by
  obtain ⟨shown, fields, payload, sets, rfl⟩ := sets_of_returns ran rfl
  obtain ⟨names, afresh⟩ : fields.map Prod.fst = (Call.started name ordinal arguments time).writes ∧
      Sets (bare.entryOf name) (.started name ordinal arguments time) fields payload := by
    cases sets with
    | started listed => exact ⟨rfl, .started listed⟩
  have unset (field : String) : Record.get?
      (.ofFields (Call.started name ordinal arguments time).base) field = none := rfl
  refine ⟨_, afresh.returns rfl shown, ?_, ?_⟩
  · intro field
    rw [get?_entryOf_recorded (unset field), get?_entryOf_recorded (unset field),
      get?_entryOf_bare, Option.or_none]
  · intro field
    rw [get?_entryOf_recorded (unset field), get?_entryOf_bare, Option.or_none,
      isSome_get?_update_ofFields, names]
    simp [Writes, Call.stage?]

namespace LaidOver

variable (overlay : LaidOver name calls earlier alone before)

include overlay

theorem get?_of_written (written : Writes calls name field) :
    Record.get? (before.entryOf name) field = Record.get? (alone.entryOf name) field := by
  obtain ⟨value, found⟩ := Option.isSome_iff_exists.mp ((overlay.written field).mpr written)
  rw [overlay.laid, found]
  rfl

theorem get?_of_unwritten (unwritten : ¬ Writes calls name field) :
    Record.get? (before.entryOf name) field = Record.get? (earlier.entryOf name) field := by
  have absent := Option.not_isSome_iff_eq_none.mp (mt (overlay.written field).mp unwritten)
  rw [overlay.laid, absent]
  rfl

/-- A call about another stage makes no difference. -/
theorem elsewhere (about : call.stage? ≠ some name)
    (ran : Returns call.perform before () after) :
    LaidOver name (calls ++ [call]) earlier alone after := by
  constructor
  · intro field
    rw [← overlay.laid field, entryOf, (step_of_returns ran).others name about, ← entryOf]
  · intro field
    rw [overlay.written, writes_append]
    simp [about]

/-- A call about the stage does on its own what it does here. -/
theorem perform (numbered : Writes calls name "ordinal") (begun : Writes calls name "started_at")
    (about : call.stage? = some name) (ran : Returns call.perform before () after) :
    ∃ next, Returns call.perform alone () next ∧
      LaidOver name (calls ++ [call]) earlier next after := by
  obtain ⟨shown, fields, payload, sets, rfl⟩ := sets_of_returns ran about
  have start := (overlay.written _).mpr begun
  have ordinal := (overlay.written _).mpr numbered
  have afresh : Sets (alone.entryOf name) call fields payload :=
    sets.congr (overlay.get?_of_written begun).symm
      (congrArg Option.isSome (overlay.get?_of_written numbered).symm)
  have known : (Record.get? (before.entryOf name) "started_at").isSome := by
    rwa [overlay.get?_of_written begun]
  refine ⟨_, afresh.returns about shown, ?_, ?_⟩
  · intro field
    rw [get?_entryOf_recorded_of_known known, get?_entryOf_recorded_of_known start, overlay.laid,
      Option.or_assoc]
  · intro field
    rw [get?_entryOf_recorded_of_known start, Option.isSome_or, Bool.or_eq_true,
      isSome_get?_update_ofFields, afresh.writes ordinal, overlay.written, writes_append, or_comm]
    simp [about]

end LaidOver

/-- What the calls about a stage since one of its starts do here, they do on their own. -/
theorem laidOver_of_replay {ordinal arguments : Value} {time : Timestamp}
    (ran : Returns (replay (.started name ordinal arguments time :: back)) earlier () after) :
    ∃ alone,
      Returns (replay ((.started name ordinal arguments time :: back).filter
        (Call.isAbout name))) bare () alone ∧
      LaidOver name (.started name ordinal arguments time :: back) earlier alone after := by
  induction back using List.reverseRecOn generalizing after with
  | nil =>
    obtain ⟨alone, performed, overlay⟩ := laidOver_started (returns_replay_singleton.mp ran)
    refine ⟨alone, ?_, overlay⟩
    rw [List.filter_cons_of_pos (isAbout_iff.mpr rfl), List.filter_nil]
    exact returns_replay_singleton.mpr performed
  | append_singleton back call ih =>
    rw [← List.cons_append] at ran ⊢
    obtain ⟨middle, first, last⟩ := returns_replay_append.mp ran
    obtain ⟨alone, replayed, overlay⟩ := ih first
    have performed := returns_replay_singleton.mp last
    rw [List.filter_append]
    by_cases about : call.stage? = some name
    · have begins (field : String)
          (member : field ∈ (Call.started name ordinal arguments time).writes) :
          Writes (.started name ordinal arguments time :: back) name field :=
        ⟨_, List.mem_cons_self, rfl, member⟩
      obtain ⟨next, own, overlay⟩ := overlay.perform (begins "ordinal" (by simp [Call.writes]))
        (begins "started_at" (by simp [Call.writes])) about performed
      refine ⟨next, ?_, overlay⟩
      rw [List.filter_cons_of_pos (isAbout_iff.mpr about), List.filter_nil]
      exact returns_replay_append.mpr ⟨alone, replayed, returns_replay_singleton.mpr own⟩
    · refine ⟨alone, ?_, overlay.elsewhere about performed⟩
      rw [List.filter_cons_of_neg (mt isAbout_iff.mp about), List.filter_nil, List.append_nil]
      exact replayed

/-- The error of a stage stays what it is until the stage fails again. -/
theorem error_of_replay (unfailed : ¬ Writes calls name "error")
    (ran : Returns (replay calls) before () after) :
    Record.get? (after.entryOf name) "error" = Record.get? (before.entryOf name) "error" := by
  induction calls generalizing before with
  | nil =>
    obtain ⟨-, rfl⟩ := (replay_nil before).unique ran
    rfl
  | cons call calls ih =>
    obtain ⟨middle, performed, ran⟩ := returns_replay_cons.mp ran
    have later : ¬ Writes calls name "error" := fun ⟨other, member, written⟩ =>
      unfailed ⟨other, List.mem_cons_of_mem _ member, written⟩
    rw [ih later ran]
    by_cases about : call.stage? = some name
    · have unwritten : "error" ∉ call.writes := fun written =>
        unfailed ⟨call, List.mem_cons_self, about, written⟩
      obtain ⟨-, fields, payload, sets, rfl⟩ := sets_of_returns performed about
      rw [get?_entryOf_recorded (get?_base_of_ne call (by decide))]
      cases sets with
      | started => simp
      | finished => simp [endingFields]
      | failed => exact absurd (by simp [Call.writes]) unwritten
    · rw [entryOf, (step_of_returns performed).others name about, ← entryOf]

/-- A failure gives its error to the entry, and every report of the manifest lists it. -/
theorem error_of_failure {time : Timestamp} {status error code warnings ordinal : Value}
    (shape : calls = front ++ .failed name time status error code warnings ordinal :: back)
    (ran : Returns (replay calls) before () after) (unfailed : ¬ Writes back name "error") :
    Record.get? (after.entryOf name) "error" = some error ∧
      ∀ text, Report.generate after.toValue = .ok text → Report.ListsFailure after text name := by
  rw [shape] at ran
  obtain ⟨earlier, later, -, performed, rest⟩ := returns_replay_split ran
  obtain ⟨-, fields, payload, sets, rfl⟩ := sets_of_returns performed rfl
  cases sets with
  | @failed _ _ _ _ _ _ record items milliseconds listed measured =>
    have stored : Record.get? (after.entryOf name) "error" = some (.map record) := by
      rw [error_of_replay unfailed rest, get?_entryOf_recorded (get?_base_of_ne _ (by decide)),
        missingOrdinal]
      split <;> simp [endingFields]
    have held := find?_of_known (Option.isSome_of_eq_some stored)
    exact ⟨stored, fun text made => Report.listsFailure_of_error held stored made⟩

/-- The entry of a stage after one of its starts: what the calls since then write is what they make
of it on their own, and all else is what it was. -/
structure Restarted (name : String) (front since : List Call) (earlier alone after : Manifest) :
    Prop where
  written : ∀ field, Writes since name field →
    Record.get? (after.entryOf name) field = Record.get? (alone.entryOf name) field
  unwritten : ∀ field, ¬ Writes since name field →
    Record.get? (after.entryOf name) field = Record.get? (earlier.entryOf name) field
  running : (∀ call ∈ since.tail, call.stage? ≠ some name) →
    ∀ field ∈ ["finished_at", "duration_ms", "returncode", "warnings", "error"],
      Record.get? (after.entryOf name) field = Record.get? (earlier.entryOf name) field
  failed : ∀ older time status error code warnings ordinal between,
    front = older ++ .failed name time status error code warnings ordinal :: between →
    ¬ Writes (between ++ since) name "error" →
    Record.get? (after.entryOf name) "error" = some error ∧
      ∀ text, Report.generate after.toValue = .ok text → Report.ListsFailure after text name

/-- A start does not clear the entry of its stage. -/
theorem restarted_of_replay {ordinal arguments : Value} {time : Timestamp}
    (ran : Returns (replay (front ++ .started name ordinal arguments time :: back)) before ()
      after) :
    ∃ earlier alone, Returns (replay front) before () earlier ∧
      Returns (replay ((.started name ordinal arguments time :: back).filter
        (Call.isAbout name))) bare () alone ∧
      Restarted name front (.started name ordinal arguments time :: back) earlier alone after := by
  obtain ⟨earlier, first, rest⟩ := returns_replay_append.mp ran
  obtain ⟨alone, replayed, overlay⟩ := laidOver_of_replay rest
  refine ⟨earlier, alone, first, replayed, ⟨?_, ?_, ?_, ?_⟩⟩
  · intro field written
    exact overlay.get?_of_written written
  · intro field unwritten
    exact overlay.get?_of_unwritten unwritten
  · intro elsewhere field member
    apply overlay.get?_of_unwritten
    rintro ⟨call, present, about, written⟩
    rcases List.mem_cons.mp present with rfl | later
    · simp only [List.mem_cons, List.not_mem_nil, or_false] at member
      rcases member with rfl | rfl | rfl | rfl | rfl <;> simp [Call.writes] at written
    · exact elsewhere call later about
  · rintro older time status error code warnings number between rfl unfailed
    exact error_of_failure (by rw [List.append_assoc, List.cons_append]) ran unfailed

def buildStarted : Call := .started "build" (.int 0) (.ofTexts ["cargo"]) (second 1)

def buildFailed : Call :=
  .failed "build" (second 2) (.text "failed") (.ofFields [("type", .text "StageError")]) (.int 1)
    .null .null

def buildRestarted : Call := .started "build" (.int 0) (.ofTexts ["cargo"]) (second 3)

def buildFinished : Call := .finished "build" (second 4) (.int 0) .null

theorem failure_restarted : ∃ after earlier alone,
    Returns (replay ([buildStarted, buildFailed] ++ [buildRestarted, buildFinished])) bare ()
        after ∧
      Returns (replay [buildStarted, buildFailed]) bare () earlier ∧
      Returns (replay ([buildRestarted, buildFinished].filter (Call.isAbout "build"))) bare ()
        alone ∧
      Restarted "build" [buildStarted, buildFailed] [buildRestarted, buildFinished] earlier alone
        after := by
  obtain ⟨⟨⟩, replayed⟩ := exists_of_isOk (by decide +kernel :
    ((replay ([buildStarted, buildFailed] ++ [buildRestarted, buildFinished])).run.run
      bare).1.isOk = true)
  have ran := Returns.of_ok replayed
  obtain ⟨earlier, alone, first, own, restarted⟩ := restarted_of_replay ran
  exact ⟨_, earlier, alone, ran, first, own, restarted⟩

/-- While it runs again, the stage has an end and an error, and after its success it is reported as
a failure. -/
theorem failure_reported_again : ∃ running finished text,
    Returns (replay [buildStarted, buildFailed, buildRestarted]) bare () running ∧
      (Record.get? (running.entryOf "build") "status").bind Value.asText? = some "running" ∧
      (Record.get? (running.entryOf "build") "finished_at").isSome ∧
      (Record.get? (running.entryOf "build") "returncode").isSome ∧
      (Record.get? (running.entryOf "build") "error").isSome ∧
      Returns buildFinished.perform running () finished ∧
      (Record.get? (finished.entryOf "build") "status").bind Value.asText? = some "success" ∧
      (Record.get? (finished.entryOf "build") "error").isSome ∧
      Report.generate finished.toValue = .ok text ∧ Report.ListsFailure finished text "build" := by
  have shown :
      let first := (replay [buildStarted, buildFailed, buildRestarted]).run.run bare
      let last := buildFinished.perform.run.run first.2
      let running := Manifest.entryOf first.2 "build"
      let finished := Manifest.entryOf last.2 "build"
      first.1.isOk = true ∧ (Record.get? running "status").bind Value.asText? = some "running" ∧
        (Record.get? running "finished_at").isSome ∧ (Record.get? running "returncode").isSome ∧
        last.1.isOk = true ∧
        (Record.get? finished "status").bind Value.asText? = some "success" ∧
        (Report.generate (Manifest.toValue last.2)).isOk = true := by decide +kernel
  obtain ⟨first, status, ended, code, last, succeeded, made⟩ := shown
  obtain ⟨⟨⟩, first⟩ := exists_of_isOk first
  obtain ⟨⟨⟩, last⟩ := exists_of_isOk last
  obtain ⟨text, made⟩ := exists_of_isOk made
  have restarted := Returns.of_ok first
  have performed := Returns.of_ok last
  have again := returns_replay_append.mpr ⟨_, restarted, returns_replay_singleton.mpr performed⟩
  have begun : [buildStarted, buildFailed, buildRestarted] =
    [buildStarted] ++ buildFailed :: [buildRestarted] := rfl
  have whole : [buildStarted, buildFailed, buildRestarted] ++ [buildFinished] =
    [buildStarted] ++ buildFailed :: [buildRestarted, buildFinished] := rfl
  obtain ⟨stored, -⟩ := error_of_failure begun restarted
    (by simp [Writes, buildRestarted, Call.writes])
  obtain ⟨kept, listed⟩ := error_of_failure whole again
    (by simp [Writes, buildRestarted, buildFinished, Call.writes])
  exact ⟨_, _, text, restarted, status, ended, code, Option.isSome_of_eq_some stored, performed,
    succeeded, Option.isSome_of_eq_some kept, made, listed text made⟩

end BuildRules.Manifest
