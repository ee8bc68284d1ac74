import BuildRules.Proofs.First
import BuildRules.Proofs.Run.Replay
import Mathlib.Data.List.Induction

namespace BuildRules.Manifest

namespace Call

def startOf? (name : String) : Call → Option Timestamp
  | started stage _ _ time => if stage = name then some time else none
  | _ => none

def Ends : Call → Prop
  | finished _ _ _ _ => True
  | failed _ _ _ _ _ _ _ => True
  | _ => False

def status? : Call → Option Value
  | started _ _ _ _ => some (.text "running")
  | finished _ _ _ _ => some (.text "success")
  | failed _ _ status _ _ _ _ => some status
  | closed _ _ => none

def LastFor (name : String) (later : List Call) (call : Call) : Prop :=
  call.stage? = some name ∧ ∀ other ∈ later, other.stage? ≠ some name

end Call

def latestStart? (name : String) (calls : List Call) : Option Timestamp :=
  calls.reverse.findSome? (Call.startOf? name)

/-- Milliseconds from the latest start of the stage; none without a start. -/
def spanSince (calls : List Call) (name : String) (time : Timestamp) : Int :=
  match latestStart? name calls with
  | some start => Time.milliseconds (time.instant - start.instant)
  | none => 0

/-- What the event of a call says, given the calls before it. -/
def Call.payload? (earlier : List Call) : Call → Option Record
  | started _ ordinal _ _ => some (.ofFields [("ordinal", ordinal)])
  | finished stage time _ _ => some (.ofFields
      [("status", .text "success"), ("duration_ms", .int (spanSince earlier stage time))])
  | failed _ _ _ error _ _ _ => error.entries.toOption.map fun entries =>
      .ofFields [("error", (Record.get? entries "type").getD .null)]
  | closed _ outcome => outcome.table.toOption

variable {calls front back : List Call} {call : Call} {name : String} {time : Timestamp}

theorem latestStart?_append (calls : List Call) (call : Call) (name : String) :
    latestStart? name (calls ++ [call]) = (call.startOf? name).or (latestStart? name calls) := by
  rw [latestStart?, List.reverse_append, List.reverse_singleton, List.singleton_append,
    List.findSome?_cons]
  cases call.startOf? name <;> rfl

theorem spanSince_nonneg (calls : List Call) (name : String) (time : Timestamp) :
    0 ≤ spanSince calls name time := by
  rw [spanSince]
  split
  · exact le_max_left 0 _
  · exact le_refl 0

section Fields

variable {entry : Record} {fields payload : List (String × Value)}

theorem Sets.startedAt (sets : Sets entry call fields payload) (about : call.stage? = some name) :
    Record.get? (Entries.update [] (Record.ofFields fields)) "started_at" =
      (call.startOf? name).map fun start => .text start.utcIso := by
  cases sets with
  | started =>
    obtain rfl := Option.some.inj about
    simp [Call.startOf?]
  | finished => simp [Call.startOf?, endingFields]
  | failed =>
    rw [missingOrdinal]
    split <;> simp [Call.startOf?, endingFields]

theorem Sets.status (sets : Sets entry call fields payload) :
    Record.get? (Entries.update [] (Record.ofFields fields)) "status" = call.status? := by
  cases sets with
  | started => simp [Call.status?]
  | finished => simp [Call.status?, endingFields]
  | failed =>
    rw [missingOrdinal]
    split <;> simp [Call.status?, endingFields]

theorem Sets.duration (sets : Sets entry call fields payload) (ends : call.Ends) :
    ∃ milliseconds, durationFrom entry call.time = .ok milliseconds ∧
      Record.get? (Entries.update [] (Record.ofFields fields)) "duration_ms" =
        some (.int milliseconds) := by
  cases sets with
  | started => cases ends
  | @finished _ _ _ _ _ milliseconds _ measured =>
    exact ⟨milliseconds, measured, by simp [endingFields]⟩
  | @failed _ _ _ _ _ _ _ _ milliseconds _ measured =>
    refine ⟨milliseconds, measured, ?_⟩
    rw [missingOrdinal]
    split <;> simp [endingFields]

end Fields

variable {fresh before after : Manifest}

theorem get?_base_of_ne (call : Call) {field : String} (other : "stage" ≠ field) :
    Record.get? (.ofFields call.base) field = none := by
  cases call <;> simp [Call.base, other]

theorem startedAt_of_returns (ran : Returns call.perform before () after) (name : String) :
    Record.get? (after.entryOf name) "started_at" =
      ((call.startOf? name).map fun start => .text start.utcIso).or
        (Record.get? (before.entryOf name) "started_at") := by
  by_cases about : call.stage? = some name
  · obtain ⟨-, fields, payload, sets, rfl⟩ := sets_of_returns ran about
    rw [get?_entryOf_recorded (get?_base_of_ne call (by decide)), sets.startedAt about]
  · have elsewhere : call.startOf? name = none := by
      cases call with
      | started stage ordinal arguments time =>
        exact if_neg fun same => about (congrArg some same)
      | _ => rfl
    rw [entryOf, (step_of_returns ran).others name about, elsewhere]
    rfl

/-- The starts of the stages are their latest ones, at times that a clock shows. -/
structure StartsKept (calls : List Call) (manifest : Manifest) : Prop where
  stored : ∀ name, Record.get? (manifest.entryOf name) "started_at" =
    (latestStart? name calls).map fun start => .text start.utcIso
  shown : ∀ name, ∀ start ∈ latestStart? name calls, start.utc?.isSome

theorem startsKept_nil (empty : fresh.stages = []) : StartsKept [] fresh := by
  constructor
  · intro name
    rw [entryOf, empty]
    rfl
  · intro name start none
    cases none

theorem StartsKept.perform (kept : StartsKept calls before)
    (ran : Returns call.perform before () after) : StartsKept (calls ++ [call]) after := by
  constructor
  · intro name
    rw [startedAt_of_returns ran, kept.stored, latestStart?_append]
    cases call.startOf? name <;> rfl
  · intro name start latest
    rw [latestStart?_append] at latest
    cases starts : call.startOf? name with
    | none =>
      rw [starts] at latest
      exact kept.shown name start latest
    | some time =>
      rw [starts] at latest
      cases latest
      have shown := (step_of_returns ran).shown
      cases call with
      | started stage ordinal arguments at_ =>
        rw [Call.startOf?] at starts
        split at starts
        next =>
          cases starts
          exact shown
        next => cases starts
      | _ => cases starts

theorem startsKept_of_replay (empty : fresh.stages = [])
    (ran : Returns (replay calls) fresh () after) : StartsKept calls after := by
  induction calls using List.reverseRecOn generalizing after with
  | nil =>
    obtain ⟨-, rfl⟩ := (replay_nil fresh).unique ran
    exact startsKept_nil empty
  | append_singleton calls call ih =>
    obtain ⟨middle, earlier, last⟩ := returns_replay_append.mp ran
    exact (ih earlier).perform (returns_replay_singleton.mp last)

theorem StartsKept.durationFrom (kept : StartsKept calls before) (name : String)
    (shown : time.utc?.isSome) :
    Manifest.durationFrom (before.entryOf name) time = .ok (spanSince calls name time) := by
  have stored := kept.stored name
  rw [spanSince]
  cases latest : latestStart? name calls with
  | none =>
    rw [latest] at stored
    rw [Manifest.durationFrom, stored]
    rfl
  | some start =>
    rw [latest] at stored
    exact durationFrom_of_start stored (kept.shown name start latest) shown

/-- The event of a call says what follows from the calls before it. -/
theorem StartsKept.payload (kept : StartsKept calls before)
    (ran : Returns call.perform before () after) :
    ∃ payload, call.payload? calls = some payload ∧
      after.events = before.events ++ [call.event payload] := by
  cases about : call.stage? with
  | none =>
    cases call with
    | closed time outcome =>
      obtain ⟨-, table, read, rfl⟩ := closed_of_returns ran
      exact ⟨table, by rw [Call.payload?, read]; rfl, rfl⟩
    | _ => cases about
  | some name =>
    obtain ⟨shown, fields, payload, sets, rfl⟩ := sets_of_returns ran about
    refine ⟨.ofFields payload, ?_, rfl⟩
    cases sets with
    | started => rfl
    | @finished stage time code warnings items milliseconds listed measured =>
      obtain rfl := Option.some.inj about
      have span : spanSince calls stage time = milliseconds :=
        Except.ok.inj ((kept.durationFrom stage shown).symm.trans measured)
      rw [Call.payload?, span]
    | failed => rfl

theorem keys_of_replay (empty : fresh.stages = []) (ran : Returns (replay calls) fresh () after) :
    after.stages.keys = (calls.filterMap Call.stage?).eraseDups.map .text := by
  induction calls using List.reverseRecOn generalizing after with
  | nil =>
    obtain ⟨-, rfl⟩ := (replay_nil fresh).unique ran
    rw [empty]
    rfl
  | append_singleton calls call ih =>
    obtain ⟨middle, earlier, last⟩ := returns_replay_append.mp ran
    have performed := returns_replay_singleton.mp last
    have before := ih earlier
    rw [List.filterMap_append]
    cases about : call.stage? with
    | none =>
      cases call with
      | closed time outcome =>
        obtain ⟨-, table, -, rfl⟩ := closed_of_returns performed
        rw [List.filterMap_cons_none about, List.filterMap_nil, List.append_nil]
        exact before
      | _ => cases about
    | some name =>
      obtain ⟨-, fields, payload, -, rfl⟩ := sets_of_returns performed about
      have known : .text name ∈ middle.stages.keys ↔ name ∈ calls.filterMap Call.stage? := by
        rw [before, List.mem_map_of_injective (fun _ _ => Scalar.text.inj), List.mem_eraseDups]
      rw [keys_recorded, List.filterMap_cons_some about, List.filterMap_nil,
        eraseDups_append_singleton]
      by_cases again : name ∈ calls.filterMap Call.stage?
      · rw [if_pos (known.mpr again), if_pos again, before]
      · rw [if_neg (mt known.mp again), if_neg again, before, List.map_append]
        rfl

/-- A call keeps what is not its own: the entries of other stages, and the events before it. The
event of a success tells the duration that its stage then has. -/
structure Call.Keeps (call : Call) (before after : Manifest) : Prop where
  others : ∀ name, call.stage? ≠ some name →
    Entries.find? after.stages (.text name) = Entries.find? before.stages (.text name)
  events : before.events <+: after.events
  measured : ∀ stage time code warnings, call = .finished stage time code warnings →
    ∃ milliseconds,
      Record.get? (after.entryOf stage) "duration_ms" = some (.int milliseconds) ∧
      after.events.getLast? = some (call.event (.ofFields
        [("status", .text "success"), ("duration_ms", .int milliseconds)]))

theorem keeps_of_returns (ran : Returns call.perform before () after) :
    call.Keeps before after := by
  have step := step_of_returns ran
  obtain ⟨payload, events⟩ := step.events
  refine ⟨step.others, events ▸ List.prefix_append _ _, ?_⟩
  rintro stage time code warnings rfl
  obtain ⟨-, fields, payload, sets, rfl⟩ := sets_of_returns ran rfl
  cases sets with
  | @finished _ _ _ _ items milliseconds _ _ =>
    refine ⟨milliseconds, ?_, List.getLast?_concat⟩
    rw [get?_entryOf_recorded (get?_base_of_ne _ (by decide))]
    simp [endingFields]

/-- What the calls leave: their events in order, each stage as the last call for it says, and the
outcome of the last call that gives one. -/
structure Accords (fresh : Manifest) (calls : List Call) (after : Manifest) : Prop where
  count : after.events.length = calls.length
  events : ∀ front call back, calls = front ++ call :: back → ∃ payload,
    call.payload? front = some payload ∧
      after.events[front.length]? = some (call.event payload)
  order : after.stages.keys = (calls.filterMap Call.stage?).eraseDups.map .text
  status : ∀ front call back name, calls = front ++ call :: back → call.LastFor name back →
    Record.get? (after.entryOf name) "status" = call.status?
  duration : ∀ front call back name, calls = front ++ call :: back → call.LastFor name back →
    call.Ends →
    Record.get? (after.entryOf name) "duration_ms" = some (.int (spanSince front name call.time)) ∧
      0 ≤ spanSince front name call.time
  outcome : ∀ front time outcome back, calls = front ++ .closed time outcome :: back →
    (∀ later ∈ back, later.stage? ≠ none) → outcome.table = .ok after.outcome
  undecided : (∀ call ∈ calls, call.stage? ≠ none) → after.outcome = []
  steps : ∀ front call back, calls = front ++ call :: back → ∃ earlier later,
    Returns (replay front) fresh () earlier ∧ Returns call.perform earlier () later ∧
      Returns (replay back) later () after ∧ call.Keeps earlier later

section Fresh

variable (empty : fresh.stages = []) (quiet : fresh.events = [])

include empty quiet in
theorem event_of_replay (ran : Returns (replay (front ++ call :: back)) fresh () after) :
    ∃ payload, call.payload? front = some payload ∧
      after.events[front.length]? = some (call.event payload) := by
  obtain ⟨earlier, later, first, performed, rest⟩ := returns_replay_split ran
  obtain ⟨payload, said, added⟩ := (startsKept_of_replay empty first).payload performed
  obtain ⟨before, told, count⟩ := events_of_replay first
  obtain ⟨events, grown, -⟩ := events_of_replay rest
  refine ⟨payload, said, ?_⟩
  rw [quiet, List.nil_append] at told
  rw [grown, added, told, List.append_assoc, ← count,
    List.getElem?_append_right (Nat.le_refl _), Nat.sub_self]
  rfl

theorem status_of_replay (ran : Returns (replay (front ++ call :: back)) fresh () after)
    (last : call.LastFor name back) :
    Record.get? (after.entryOf name) "status" = call.status? := by
  obtain ⟨earlier, later, -, performed, rest⟩ := returns_replay_split ran
  obtain ⟨-, fields, payload, sets, rfl⟩ := sets_of_returns performed last.1
  rw [entryOf, find?_of_replay last.2 rest, ← entryOf,
    get?_entryOf_recorded (get?_base_of_ne call (by decide)), sets.status]
  cases sets <;> rfl

include empty in
theorem duration_of_replay (ran : Returns (replay (front ++ call :: back)) fresh () after)
    (last : call.LastFor name back) (ends : call.Ends) :
    Record.get? (after.entryOf name) "duration_ms" =
      some (.int (spanSince front name call.time)) := by
  obtain ⟨earlier, later, first, performed, rest⟩ := returns_replay_split ran
  obtain ⟨shown, fields, payload, sets, rfl⟩ := sets_of_returns performed last.1
  obtain ⟨milliseconds, measured, stored⟩ := sets.duration ends
  have span := ((startsKept_of_replay empty first).durationFrom name shown).symm.trans measured
  rw [entryOf, find?_of_replay last.2 rest, ← entryOf,
    get?_entryOf_recorded (get?_base_of_ne call (by decide)), stored, Except.ok.inj span]
  rfl

end Fresh

theorem outcome_of_closed {outcome : Value}
    (ran : Returns (replay (front ++ .closed time outcome :: back)) fresh () after)
    (staged : ∀ later ∈ back, later.stage? ≠ none) : outcome.table = .ok after.outcome := by
  obtain ⟨earlier, later, -, performed, rest⟩ := returns_replay_split ran
  obtain ⟨-, table, read, rfl⟩ := closed_of_returns performed
  rw [outcome_of_replay staged rest]
  exact read

/-- State and events of a manifest accord with the calls that were made of it, in any order. -/
theorem accords_of_replay {runId version identity environment trigger : Value}
    {startedAt : Timestamp}
    (created : create runId startedAt version identity environment trigger = .ok fresh)
    (ran : Returns (replay calls) fresh () after) : Accords fresh calls after := by
  obtain ⟨empty, quiet, undecided⟩ := empty_of_create created
  refine ⟨?_, ?_, keys_of_replay empty ran, ?_, ?_, ?_, ?_, ?_⟩
  · obtain ⟨events, told, count⟩ := events_of_replay ran
    rw [told, quiet, List.nil_append, count]
  · rintro front call back rfl
    exact event_of_replay empty quiet ran
  · rintro front call back name rfl last
    exact status_of_replay ran last
  · rintro front call back name rfl last ends
    exact ⟨duration_of_replay empty ran last ends, spanSince_nonneg front name call.time⟩
  · rintro front time outcome back rfl staged
    exact outcome_of_closed ran staged
  · intro staged
    rw [outcome_of_replay staged ran, undecided]
  · rintro front call back rfl
    obtain ⟨earlier, later, first, performed, rest⟩ := returns_replay_split ran
    exact ⟨earlier, later, first, performed, rest, keeps_of_returns performed⟩

def second (count : Nat) : Timestamp :=
  (Timestamp.ofWall? (count * 1000000) none).getD (.dawn false none)

/-- Calls that no run makes: an end without a start, a failure on a clock that went back, and a
stage that is started again while another one runs. -/
def revisited : List Call :=
  [.finished "lint" (second 1) (.int 0) .null,
    .started "build" (.int 1) (.ofTexts ["cargo", "build"]) (second 9),
    .failed "build" (second 4) (.text "failed") (.ofFields [("type", .text "StageError")]) .null
      .null .null,
    .started "test" (.int 2) (.ofTexts ["cargo", "test"]) (second 5),
    .started "build" (.int 1) (.ofTexts ["cargo", "build"]) (second 6),
    .finished "build" (second 8) (.int 0) (.ofTexts ["unused"]),
    .closed (second 9) (.ofFields [("succeeded", .bool true)])]

theorem revisited_accords : ∃ fresh after,
    create (.text "run-1") (second 0) (.text "0.1.0") (.text "") .null .null = .ok fresh ∧
      Returns (replay revisited) fresh () after ∧ Accords fresh revisited after := by
  obtain ⟨⟨⟩, ran⟩ := exists_of_isOk (by decide +kernel :
    (create (.text "run-1") (second 0) (.text "0.1.0") (.text "") .null .null >>= fun fresh =>
      ((replay revisited).run.run fresh).1).isOk = true)
  obtain ⟨fresh, created, replayed⟩ := bind_eq_ok.mp ran
  have returned := Returns.of_ok replayed
  exact ⟨fresh, _, created, returned, accords_of_replay created returned⟩

end BuildRules.Manifest
