import BuildRules.Alias.Table
import BuildRules.Proofs.Returns
import BuildRules.Proofs.Value.Keyed
import BuildRules.Stage.Plan
import Mathlib.Data.List.Nodup

namespace BuildRules

namespace Filing

variable {γ α σ : Type} {filing : Filing γ α} {items : List α} {call : γ} {error : PolicyError}

theorem check_eq_ok {named : String → Bool} {numbered : Int → Bool} :
    filing.check named numbered call = .ok () ↔
      filing.forbidden call = false ∧ named (filing.name (filing.item call)) = false ∧
        ∀ number ∈ filing.number? (filing.item call), numbered number = false := by
  rw [check]
  cases filing.forbidden call with
  | true => simp
  | false =>
    cases named (filing.name (filing.item call)) with
    | true => simp
    | false => cases filing.number? (filing.item call) <;> simp

/-- The checks of a call once certain items are filed. -/
def checkAmong (filing : Filing γ α) (items : List α) (call : γ) : Except PolicyError Unit :=
  filing.check (items.map filing.name).contains (items.filterMap filing.number?).contains call

theorem checkAmong_eq_ok : filing.checkAmong items call = .ok () ↔
    filing.forbidden call = false ∧ filing.name (filing.item call) ∉ items.map filing.name ∧
      ∀ number ∈ filing.number? (filing.item call), number ∉ items.filterMap filing.number? := by
  simp only [checkAmong, check_eq_ok, ← Bool.not_eq_true, List.contains_iff_mem]

/-- A call is refused for its own sake, for its name or for its number. -/
theorem exists_refusal_iff : (∃ error, filing.checkAmong items call = .error error) ↔
    filing.forbidden call = true ∨
      (∃ earlier ∈ items, filing.name earlier = filing.name (filing.item call)) ∨
      ∃ earlier ∈ items, ∃ number,
        filing.number? earlier = some number ∧ filing.number? (filing.item call) = some number := by
  have refused : (∃ error, filing.checkAmong items call = .error error) ↔
      ¬ filing.checkAmong items call = .ok () := by
    cases filing.checkAmong items call <;> simp
  rw [refused, checkAmong_eq_ok, not_and_or, not_and_or, Bool.not_eq_false, not_not, List.mem_map]
  simp only [List.mem_filterMap, not_forall, not_not, Option.mem_def]
  refine or_congr_right (or_congr_right ?_)
  constructor
  · rintro ⟨number, given, earlier, member, taken⟩
    exact ⟨earlier, member, number, taken, given⟩
  · rintro ⟨earlier, member, number, taken, given⟩
    exact ⟨number, given, earlier, member, taken⟩

/-- The containers hold the same items, and no name and no number twice. -/
structure InStep (filing : Filing γ α) (register : Register α) (items : List α) : Prop where
  index : register.index = items.map fun item => (filing.name item, item)
  order : register.order = items.map filing.name
  numbers : register.numbers = items.filterMap filing.number?
  namesDistinct : (items.map filing.name).Nodup
  numbersDistinct : (items.filterMap filing.number?).Nodup

/-- An action does to its state what the calls do to a list of items. -/
structure Follows (filing : Filing γ α) (act : γ → ExceptT PolicyError (StateM σ) Unit)
    (Holds : σ → List α → Prop) : Prop where
  refused : ∀ {state items call error}, Holds state items →
    filing.checkAmong items call = .error error → Stops (act call) state error state
  taken : ∀ {state items call}, Holds state items → filing.checkAmong items call = .ok () →
    ∃ after, Returns (act call) state () after ∧ Holds after (items ++ [filing.item call])

theorem InStep.get? {register : Register α} (inStep : filing.InStep register items) (name : String) :
    register.get? name = items.find? fun item => filing.name item == name := by
  have listed (items : List α) :
      Entries.find? (items.map fun item => (filing.name item, item)) name =
        items.find? fun item => filing.name item == name := by
    induction items with
    | nil => rfl
    | cons item rest ih =>
      rw [List.map_cons, Entries.find?, List.find?_cons, ih]
      change (if (filing.name item == name) = true then _ else _) = _
      cases filing.name item == name <;> rfl
  rw [Register.get?, inStep.index, listed]

theorem InStep.has {register : Register α} (inStep : filing.InStep register items) (name : String) :
    register.index.has name = (items.map filing.name).contains name := by
  rw [Entries.has, ← Register.get?, inStep.get?, Bool.eq_iff_iff, List.find?_isSome,
    List.contains_iff_mem, List.mem_map]
  simp only [beq_iff_eq]

theorem InStep.check {register : Register α} (inStep : filing.InStep register items) (call : γ) :
    filing.check register.index.has register.numbers.contains call =
      filing.checkAmong items call := by
  rw [checkAmong, ← inStep.numbers, show register.index.has = _ from funext inStep.has]

theorem InStep.filed {register : Register α} (inStep : filing.InStep register items)
    (free : filing.checkAmong items call = .ok ()) :
    filing.InStep
      ⟨register.index.insert (filing.name (filing.item call)) (filing.item call),
        register.order ++ [filing.name (filing.item call)],
        register.numbers ++ (filing.number? (filing.item call)).toList⟩
      (items ++ [filing.item call]) := by
  obtain ⟨-, fresh, unused⟩ := checkAmong_eq_ok.mp free
  have absent : register.index.find? (filing.name (filing.item call)) = none := by
    rw [← Option.isNone_iff_eq_none, ← Option.not_isSome, ← Entries.has, inStep.has]
    simpa using fresh
  have numbers : (items ++ [filing.item call]).filterMap filing.number? =
      items.filterMap filing.number? ++ (filing.number? (filing.item call)).toList := by
    rw [List.filterMap_append, List.filterMap_cons]
    cases filing.number? (filing.item call) <;> rfl
  refine ⟨?_, ?_, ?_, ?_, ?_⟩
  · rw [Entries.insert_of_absent absent, inStep.index, List.map_append]
    rfl
  · rw [inStep.order, List.map_append]
    rfl
  · rw [inStep.numbers, numbers]
  · exact Distinct.nodup_append inStep.namesDistinct (mt List.contains_iff_mem.mp fresh)
  · rw [numbers]
    cases given : filing.number? (filing.item call) with
    | none => simpa using inStep.numbersDistinct
    | some number =>
      have missing := unused number given
      rw [Option.toList_some, ← List.concat_eq_append]
      exact inStep.numbersDistinct.concat missing

theorem add_follows (filing : Filing γ α) : filing.Follows filing.add filing.InStep where
  refused inStep refused :=
    .following (.read _) <| .andThen <| .lift ((inStep.check _).trans refused) _
  taken inStep free :=
    ⟨_, .andThen (.read _) <| .andThen (.lift ((inStep.check _).trans free) _) <|
      .andThen (.change _ _) <| .andThen (.change _ _) <| .change _ _, inStep.filed free⟩

section Followed

variable {act : γ → ExceptT PolicyError (StateM σ) Unit} {Holds : σ → List α → Prop} {state : σ}

theorem Follows.rejection?_eq_some (follows : filing.Follows act Holds) (holds : Holds state items) :
    rejection? act state call = some error ↔ filing.checkAmong items call = .error error := by
  cases checked : filing.checkAmong items call with
  | ok _ =>
    obtain ⟨after, ran, -⟩ := follows.taken holds checked
    simp [rejection?_of_returns ran]
  | error fault => simp [rejection?_of_stops (follows.refused holds checked)]

/-- After any history the state holds the items of the calls that were accepted. -/
theorem Follows.holds_attempts (follows : filing.Follows act Holds) (holds : Holds state items)
    (calls : List γ) :
    Holds (attempts act state calls) (items ++ (accepted act state calls).map filing.item) := by
  induction calls generalizing state items with
  | nil => simpa [attempts, accepted] using holds
  | cons call rest ih =>
    cases checked : filing.checkAmong items call with
    | ok _ =>
      obtain ⟨after, ran, filed⟩ := follows.taken holds checked
      rw [attempts_cons_of_returns ran, accepted_cons_of_returns ran, List.map_cons,
        List.append_cons]
      exact ih filed
    | error fault =>
      have stopped := follows.refused holds checked
      rw [attempts_cons_of_stops stopped, accepted_cons_of_stops stopped]
      exact ih holds

/-- The calls that were accepted are all accepted by themselves, and come to the same. -/
theorem Follows.alone (follows : filing.Follows act Holds) (holds : Holds state items)
    (calls : List γ) :
    accepted act state (accepted act state calls) = accepted act state calls ∧
      attempts act state (accepted act state calls) = attempts act state calls := by
  induction calls generalizing state items with
  | nil => exact ⟨rfl, rfl⟩
  | cons call rest ih =>
    cases checked : filing.checkAmong items call with
    | ok _ =>
      obtain ⟨after, ran, filed⟩ := follows.taken holds checked
      obtain ⟨again, same⟩ := ih filed
      rw [accepted_cons_of_returns ran, accepted_cons_of_returns ran, again,
        attempts_cons_of_returns ran, attempts_cons_of_returns ran, same]
      exact ⟨rfl, rfl⟩
    | error fault =>
      have stopped := follows.refused holds checked
      rw [accepted_cons_of_stops stopped, attempts_cons_of_stops stopped]
      exact ih holds

theorem Follows.attempts_refused (follows : filing.Follows act Holds) {start : σ} {calls : List γ}
    (holds : Holds (attempts act start calls) items)
    (refused : (rejection? act (attempts act start calls) call).isSome) :
    attempts act start (calls ++ [call]) = attempts act start calls := by
  obtain ⟨error, refused⟩ := Option.isSome_iff_exists.mp refused
  have stopped := follows.refused holds ((follows.rejection?_eq_some holds).mp refused)
  rw [attempts_append, attempts_cons_of_stops stopped]
  rfl

theorem Follows.accepted_eq {τ : Type} {other : γ → ExceptT PolicyError (StateM τ) Unit}
    {OtherHolds : τ → List α → Prop} {otherState : τ} (follows : filing.Follows act Holds)
    (otherFollows : filing.Follows other OtherHolds) (holds : Holds state items)
    (otherHolds : OtherHolds otherState items) (calls : List γ) :
    accepted act state calls = accepted other otherState calls := by
  induction calls generalizing state otherState items with
  | nil => rfl
  | cons call rest ih =>
    cases checked : filing.checkAmong items call with
    | ok _ =>
      obtain ⟨after, ran, filed⟩ := follows.taken holds checked
      obtain ⟨otherAfter, otherRan, otherFiled⟩ := otherFollows.taken otherHolds checked
      rw [accepted_cons_of_returns ran, accepted_cons_of_returns otherRan, ih filed otherFiled]
    | error fault =>
      rw [accepted_cons_of_stops (follows.refused holds checked),
        accepted_cons_of_stops (otherFollows.refused otherHolds checked)]
      exact ih holds otherHolds

end Followed

theorem inStep_empty (filing : Filing γ α) : filing.InStep .empty [] :=
  ⟨rfl, rfl, rfl, List.nodup_nil, List.nodup_nil⟩

theorem InStep.get?_of_mem {register : Register α} {item : α}
    (inStep : filing.InStep register items) (member : item ∈ items) :
    register.get? (filing.name item) = some item := by
  have keys : register.index.keys = items.map filing.name := by
    rw [inStep.index, Entries.keys, List.map_map]
    rfl
  rw [Register.get?, Entries.find?_eq_some_iff (String.exact_key _) (keys ▸ inStep.namesDistinct),
    inStep.index]
  exact List.mem_map.mpr ⟨item, member, rfl⟩

theorem InStep.list? {register : Register α} (inStep : filing.InStep register items) :
    register.list? = some items := by
  have listed {part : List α} (found : ∀ item ∈ part, register.get? (filing.name item) = some item) :
      (part.map filing.name).mapM register.get? = some part := by
    induction part with
    | nil => rfl
    | cons item rest ih =>
      obtain ⟨first, later⟩ := List.forall_mem_cons.mp found
      rw [List.map_cons, List.mapM_cons, first, ih later]
      rfl
  rw [Register.list?, inStep.order]
  exact listed fun item member => inStep.get?_of_mem member

/-- A register of the items that were accepted, each under its name. -/
structure Registers (filing : Filing γ α) (register : Register α) (items : List α) : Prop where
  order : register.order = items.map filing.name
  numbers : register.numbers = items.filterMap filing.number?
  namesDistinct : register.order.Nodup
  numbersDistinct : register.numbers.Nodup
  first : ∀ name ∈ register.order, ∃ item, register.get? name = some item ∧
    items.find? (fun item => filing.name item == name) = some item
  listed : register.list? = some items
  size : register.index.length = register.order.length

theorem InStep.registers {register : Register α} (inStep : filing.InStep register items) :
    filing.Registers register items where
  order := inStep.order
  numbers := inStep.numbers
  namesDistinct := inStep.order ▸ inStep.namesDistinct
  numbersDistinct := inStep.numbers ▸ inStep.numbersDistinct
  first name member := by
    rw [inStep.order] at member
    obtain ⟨item, present, named⟩ := List.mem_map.mp member
    have found : (items.find? fun item => filing.name item == name).isSome :=
      List.find?_isSome.mpr ⟨item, present, beq_iff_eq.mpr named⟩
    obtain ⟨item, found⟩ := Option.isSome_iff_exists.mp found
    exact ⟨item, (inStep.get? name).trans found, found⟩
  listed := inStep.list?
  size := by rw [inStep.index, inStep.order, List.length_map, List.length_map]

/-- What a history of calls makes of the containers, and what it makes of any further call. -/
structure Keeps (filing : Filing γ α) (calls : List γ) : Prop where
  registers : filing.Registers (attempts filing.add .empty calls)
    ((accepted filing.add .empty calls).map filing.item)
  refused : ∀ call, (rejection? filing.add (attempts filing.add .empty calls) call).isSome ↔
    filing.forbidden call = true ∨
      (∃ earlier ∈ accepted filing.add .empty calls,
        filing.name (filing.item earlier) = filing.name (filing.item call)) ∨
      ∃ earlier ∈ accepted filing.add .empty calls, ∃ number,
        filing.number? (filing.item earlier) = some number ∧
          filing.number? (filing.item call) = some number
  untouched : ∀ call, (rejection? filing.add (attempts filing.add .empty calls) call).isSome →
    attempts filing.add .empty (calls ++ [call]) = attempts filing.add .empty calls
  alone : accepted filing.add .empty (accepted filing.add .empty calls) =
      accepted filing.add .empty calls ∧
    attempts filing.add .empty (accepted filing.add .empty calls) =
      attempts filing.add .empty calls

theorem keeps (filing : Filing γ α) (calls : List γ) : filing.Keeps calls := by
  have inStep := filing.add_follows.holds_attempts filing.inStep_empty calls
  rw [List.nil_append] at inStep
  refine ⟨inStep.registers, ?_, ?_, filing.add_follows.alone filing.inStep_empty calls⟩
  · intro call
    rw [Option.isSome_iff_exists]
    simp only [filing.add_follows.rejection?_eq_some inStep, exists_refusal_iff, List.mem_map,
      exists_exists_and_eq_and]
  · exact fun call refused => filing.add_follows.attempts_refused inStep refused

/-- A call of a table that is made anew by each call it accepts. -/
def changing {ε : Type} (add : σ → γ → Except ε σ) (call : γ) : ExceptT ε (StateM σ) Unit := do
  set (← liftM (add (← get) call))

section Tables

variable {add : σ → γ → Except PolicyError σ} {held : σ → List α} {Good : σ → Prop}

theorem changing_follows
    (same : ∀ state call, Good state → (add state call).map held =
      (filing.checkAmong (held state) call).map fun _ => held state ++ [filing.item call])
    (good : ∀ state call next, Good state → add state call = .ok next → Good next) :
    filing.Follows (changing add) fun state items => Good state ∧ held state = items where
  refused := by
    rintro state items call error ⟨start, rfl⟩ refused
    have same := same state call start
    rw [refused] at same
    cases added : add state call with
    | error fault =>
      rw [added] at same
      cases same
      exact .following (.read state) (.andThen (.lift added state))
    | ok next =>
      rw [added] at same
      cases same
  taken := by
    rintro state items call ⟨start, rfl⟩ free
    have same := same state call start
    rw [free] at same
    cases added : add state call with
    | error fault =>
      rw [added] at same
      cases same
    | ok next =>
      rw [added] at same
      exact ⟨next, .andThen (.read state) (.andThen (.lift added state) (.write state next)),
        good state call next start added, Except.ok.inj same⟩

/-- A table of items in order tells the same as the containers do, after any history. -/
structure Tallies (filing : Filing γ α) (add : σ → γ → Except PolicyError σ) (start : σ)
    (held : σ → List α) (find? : σ → String → Option α) (calls : List γ) : Prop where
  holds : held (attempts (changing add) start calls) =
    (accepted filing.add .empty calls).map filing.item
  finds : ∀ name, find? (attempts (changing add) start calls) name =
    (attempts filing.add .empty calls).get? name
  accepts : accepted (changing add) start calls = accepted filing.add .empty calls
  refuses : ∀ call, rejection? (changing add) (attempts (changing add) start calls) call =
    rejection? filing.add (attempts filing.add .empty calls) call
  untouched : ∀ call,
    (rejection? (changing add) (attempts (changing add) start calls) call).isSome →
      attempts (changing add) start (calls ++ [call]) = attempts (changing add) start calls

theorem tallies {start : σ} {find? : σ → String → Option α}
    (follows : filing.Follows (changing add) fun state items => Good state ∧ held state = items)
    (good : Good start) (empty : held start = [])
    (found : ∀ state name, find? state name =
      (held state).find? fun item => filing.name item == name)
    (calls : List γ) : filing.Tallies add start held find? calls := by
  have inStep := filing.add_follows.holds_attempts filing.inStep_empty calls
  have same := follows.accepted_eq filing.add_follows ⟨good, empty⟩ filing.inStep_empty calls
  have kept := follows.holds_attempts ⟨good, empty⟩ calls
  rw [same] at kept
  refine ⟨kept.2, ?_, same, ?_, ?_⟩
  · intro name
    rw [found, kept.2, inStep.get?]
  · intro call
    ext error
    rw [follows.rejection?_eq_some kept, filing.add_follows.rejection?_eq_some inStep]
  · exact fun call refused => follows.attempts_refused kept refused

end Tables
end Filing

namespace AliasTable

theorem aliases_add (table : AliasTable) (call : Alias × Bool) :
    (table.add call.1 call.2).map AliasTable.aliases =
      ((filing table.reserved).checkAmong table.aliases call).map fun _ =>
        table.aliases ++ [call.1] := by
  have checked : (filing table.reserved).checkAmong table.aliases call =
      if table.reserved.contains call.1.name && !call.2 then .error (.raised (.aliasReserved call.1.name))
      else if (table.aliases.map Alias.name).contains call.1.name then
        .error (.raised (.aliasDuplicate call.1.name))
      else .ok () := rfl
  rw [add, checked]
  split
  · rfl
  · split <;> rfl

theorem reserved_add {table next : AliasTable} {entry : Alias} {allowed : Bool}
    (added : table.add entry allowed = .ok next) : next.reserved = table.reserved := by
  rw [add] at added
  split at added
  next => cases added
  next =>
    split at added
    next => cases added
    next =>
      cases added
      rfl

theorem add_follows (reserved : List String) :
    (filing reserved).Follows (Filing.changing fun table call => add table call.1 call.2)
      fun table items => table.reserved = reserved ∧ table.aliases = items := by
  apply Filing.changing_follows
  · rintro table call rfl
    exact table.aliases_add call
  · rintro table call next rfl added
    exact reserved_add added

end AliasTable

namespace StageRegistry

theorem stages_add (registry : StageRegistry) (stage : Stage) :
    (registry.add stage).map StageRegistry.stages =
      (filing.checkAmong registry.stages stage).map fun _ => registry.stages ++ [stage] := by
  have ordinals : registry.stages.filterMap filing.number? = registry.stages.map Stage.ordinal :=
    congrFun List.filterMap_eq_map registry.stages
  have checked : filing.checkAmong registry.stages stage =
      if (registry.stages.map Stage.name).contains stage.name then
        .error (.raised (.stageNameDuplicate stage.name))
      else if (registry.stages.map Stage.ordinal).contains stage.ordinal then
        .error (.raised (.stageOrdinalDuplicate stage.ordinal stage.name))
      else .ok () := by
    rw [← ordinals]
    rfl
  rw [add, checked]
  split
  · rfl
  · split <;> rfl

theorem add_follows : filing.Follows (Filing.changing add)
    fun registry items => True ∧ registry.stages = items :=
  Filing.changing_follows (fun registry stage _ => registry.stages_add stage)
    fun _ _ _ _ _ => trivial

end StageRegistry

/-- Whatever calls are made to them, accepted or not, both registers keep the items of the accepted
calls under their names and in their order, and the tables hold those items. -/
theorem registers_keep :
    (∀ reserved calls, (AliasTable.filing reserved).Keeps calls ∧
      (AliasTable.filing reserved).Tallies (fun table call => table.add call.1 call.2)
        (.empty reserved) AliasTable.aliases AliasTable.find? calls) ∧
    ∀ calls, StageRegistry.filing.Keeps calls ∧
      StageRegistry.filing.Tallies StageRegistry.add .empty StageRegistry.stages
        StageRegistry.find? calls := by
  constructor
  · intro reserved calls
    exact ⟨Filing.keeps _ calls,
      Filing.tallies (AliasTable.add_follows reserved) rfl rfl (fun _ _ => rfl) calls⟩
  · intro calls
    exact ⟨Filing.keeps _ calls,
      Filing.tallies StageRegistry.add_follows trivial rfl (fun _ _ => rfl) calls⟩

end BuildRules
