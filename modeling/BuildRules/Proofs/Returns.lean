import BuildRules.Proofs.Pairing

namespace BuildRules

variable {ε σ α β : Type} {before middle after : σ} {value : α} {result : β}

theorem bind_eq_ok {first : Except ε α} {next : α → Except ε β} :
    first >>= next = .ok result ↔ ∃ value, first = .ok value ∧ next value = .ok result := by
  constructor
  · intro ok
    cases first with
    | error fault => cases ok
    | ok value => exact ⟨value, rfl, ok⟩
  · rintro ⟨value, rfl, ok⟩
    exact ok

theorem bind_eq_error {first : Except ε α} {next : α → Except ε β} {fault : ε} :
    first >>= next = .error fault ↔
      first = .error fault ∨ ∃ value, first = .ok value ∧ next value = .error fault := by
  cases first with
  | error other => simp [bind, Except.bind]
  | ok value => simp [bind, Except.bind]

theorem exists_of_isOk {outcome : Except ε α} (ok : outcome.isOk = true) :
    ∃ value, outcome = .ok value := by
  cases outcome with
  | error fault => cases ok
  | ok value => exact ⟨value, rfl⟩

theorem ok_of_toOption {outcome : Except ε α} (found : outcome.toOption = some value) :
    outcome = .ok value := by
  cases outcome with
  | error fault => cases found
  | ok other =>
    cases found
    rfl

theorem mapM_eq_ok {step : α → Except ε β} {items : List α} {results : List β} :
    items.mapM step = .ok results ↔
      List.Forall₂ (fun item result => step item = .ok result) items results := by
  induction items generalizing results with
  | nil =>
    rw [List.mapM_nil, List.forall₂_nil_left_iff, eq_comm (a := results)]
    exact Except.ok.injEq [] results ▸ Iff.rfl
  | cons item rest ih =>
    rw [List.mapM_cons, List.forall₂_cons_left_iff]
    simp only [bind_eq_ok, ih]
    constructor
    · rintro ⟨first, stepped, later, remaining, ok⟩
      cases ok
      exact ⟨first, later, stepped, remaining, rfl⟩
    · rintro ⟨first, later, stepped, remaining, rfl⟩
      exact ⟨first, stepped, later, remaining, rfl⟩

theorem exists_of_mapM_eq_error {step : α → Except ε β} {items : List α} {fault : ε}
    (failed : items.mapM step = .error fault) : ∃ item ∈ items, step item = .error fault := by
  induction items with
  | nil => cases failed
  | cons item rest ih =>
    rw [List.mapM_cons] at failed
    cases stepped : step item with
    | error first =>
      rw [stepped] at failed
      cases failed
      exact ⟨item, List.mem_cons_self, stepped⟩
    | ok result =>
      cases remaining : rest.mapM step with
      | error later =>
        rw [stepped, remaining] at failed
        cases failed
        obtain ⟨source, present, read⟩ := ih remaining
        exact ⟨source, List.mem_cons_of_mem item present, read⟩
      | ok results =>
        rw [stepped, remaining] at failed
        cases failed

theorem exists_of_mem_mapM {step : α → Except ε β} {items : List α} {results : List β}
    (ok : items.mapM step = .ok results) (member : result ∈ results) :
    ∃ item ∈ items, step item = .ok result := by
  exact exists_of_forall₂ (mapM_eq_ok.mp ok).flip member

theorem exists_mapM {step : α → Except ε β} {items : List α}
    (each : ∀ item ∈ items, ∃ result, step item = .ok result) :
    ∃ results, items.mapM step = .ok results := by
  obtain ⟨results, parts⟩ := exists_forall₂ each
  exact ⟨results, mapM_eq_ok.mpr parts⟩

/-- Related items that are read alike make lists that are read alike. -/
theorem mapM_eq_of_forall₂ {γ : Type} {related : α → γ → Prop} {first : α → Except ε β}
    {second : γ → Except ε β} {items : List α} {others : List γ}
    (pairs : List.Forall₂ related items others)
    (same : ∀ item other, related item other → first item = second other) :
    items.mapM first = others.mapM second := by
  induction pairs with
  | nil => rfl
  | cons head _ ih => rw [List.mapM_cons, List.mapM_cons, same _ _ head, ih]

/-- The action gives a value, and takes one state to another. -/
def Returns (action : ExceptT ε (StateM σ) α) (before : σ) (value : α) (after : σ) : Prop :=
  action.run.run before = (.ok value, after)

namespace Returns

theorem of_ok {action : ExceptT ε (StateM σ) α} (ok : (action.run.run before).1 = .ok value) :
    Returns action before value (action.run.run before).2 := Prod.ext ok rfl

theorem done (value : α) (state : σ) :
    Returns (pure value : ExceptT ε (StateM σ) α) state value state := rfl

theorem run_bind {action : ExceptT ε (StateM σ) α} (first : Returns action before value middle)
    (next : α → ExceptT ε (StateM σ) β) :
    (action >>= next).run.run before = (next value).run.run middle := by
  unfold Returns at first
  rw [ExceptT.run_bind, StateT.run_bind, first]
  rfl

theorem andThen {action : ExceptT ε (StateM σ) α} {next : α → ExceptT ε (StateM σ) β}
    (first : Returns action before value middle) (rest : Returns (next value) middle result after) :
    Returns (action >>= next) before result after :=
  (first.run_bind next).trans rest

theorem read (state : σ) : Returns (get : ExceptT ε (StateM σ) σ) state state state := rfl

theorem write (state next : σ) :
    Returns (set next : ExceptT ε (StateM σ) PUnit) state PUnit.unit next := rfl

theorem change (step : σ → σ) (state : σ) :
    Returns (modify step : ExceptT ε (StateM σ) PUnit) state PUnit.unit (step state) := rfl

theorem lift {outcome : Except ε α} (ok : outcome = .ok value) (state : σ) :
    Returns (liftM outcome : ExceptT ε (StateM σ) α) state value state := by
  subst ok
  rfl

theorem uncaught {action : ExceptT ε (StateM σ) α} {handle : ε → ExceptT ε (StateM σ) α}
    (ran : Returns action before value after) :
    Returns (tryCatch action handle) before value after := by
  unfold Returns at *
  rw [ExceptT.run_tryCatch, StateT.run_bind, ran]
  rfl

theorem unique {action : ExceptT ε (StateM σ) α} {other : α} {last : σ}
    (first : Returns action before value middle) (second : Returns action before other last) :
    value = other ∧ middle = last := by
  unfold Returns at first second
  rw [first] at second
  obtain ⟨values, states⟩ := Prod.mk.inj second
  exact ⟨Except.ok.inj values, states⟩

theorem parts {action : ExceptT ε (StateM σ) α} {next : α → ExceptT ε (StateM σ) β}
    (ran : Returns (action >>= next) before result after) :
    ∃ value middle, Returns action before value middle ∧
      Returns (next value) middle result after := by
  unfold Returns at *
  rw [ExceptT.run_bind, StateT.run_bind] at ran
  cases first : action.run.run before with
  | mk outcome middle =>
    rw [first] at ran
    cases outcome with
    | error fault => cases ran
    | ok value => exact ⟨value, middle, rfl, ran⟩

/-- What follows an action that returns has returned, if the sequence has. -/
theorem rest {action : ExceptT ε (StateM σ) α} {next : α → ExceptT ε (StateM σ) β}
    (ran : Returns (action >>= next) before result after)
    (first : Returns action before value middle) : Returns (next value) middle result after :=
  (first.run_bind next).symm.trans ran

/-- A sequence that returns has read what it reads first, and goes on from there. -/
theorem of_read {outcome : Except ε α} {next : α → ExceptT ε (StateM σ) β}
    (ran : Returns (liftM outcome >>= next) before result after) :
    ∃ value, outcome = .ok value ∧ Returns (next value) before result after := by
  cases outcome with
  | error fault => cases ran
  | ok value => exact ⟨value, rfl, ran⟩

end Returns

/-- The action fails, and takes one state to another. -/
def Stops (action : ExceptT ε (StateM σ) α) (before : σ) (fault : ε) (after : σ) : Prop :=
  action.run.run before = (.error fault, after)

namespace Stops

variable {fault : ε}

theorem andThen {action : ExceptT ε (StateM σ) α} {next : α → ExceptT ε (StateM σ) β}
    (first : Stops action before fault after) : Stops (action >>= next) before fault after := by
  unfold Stops at *
  rw [ExceptT.run_bind, StateT.run_bind, first]
  rfl

theorem following {action : ExceptT ε (StateM σ) α} {next : α → ExceptT ε (StateM σ) β}
    {last : σ} (first : Returns action before value middle)
    (rest : Stops (next value) middle fault last) : Stops (action >>= next) before fault last := by
  unfold Stops Returns at *
  rw [ExceptT.run_bind, StateT.run_bind, first]
  exact rest

theorem lift {outcome : Except ε α} (failed : outcome = .error fault) (state : σ) :
    Stops (liftM outcome : ExceptT ε (StateM σ) α) state fault state := by
  subst failed
  rfl

/-- What follows an action that returns has stopped, if the sequence has. -/
theorem rest {action : ExceptT ε (StateM σ) α} {next : α → ExceptT ε (StateM σ) β}
    (stopped : Stops (action >>= next) before fault after)
    (first : Returns action before value middle) : Stops (next value) middle fault after :=
  (first.run_bind next).symm.trans stopped

/-- A sequence that reads first has stopped there, with nothing changed, or goes on from what it
has read. -/
theorem of_read {outcome : Except ε α} {next : α → ExceptT ε (StateM σ) β}
    (stopped : Stops (liftM outcome >>= next) before fault after) :
    after = before ∨ ∃ value, outcome = .ok value ∧ Stops (next value) before fault after := by
  cases outcome with
  | error other =>
    cases stopped
    exact .inl rfl
  | ok value => exact .inr ⟨value, rfl, stopped⟩

theorem not_returns {action : ExceptT ε (StateM σ) α} (stopped : Stops action before fault after) :
    ¬ Returns action before value middle := by
  intro ran
  unfold Stops at stopped
  unfold Returns at ran
  rw [ran] at stopped
  cases stopped

/-- What catches the fault goes on from the state that it left. -/
theorem caught {action : ExceptT ε (StateM σ) α} {handle : ε → ExceptT ε (StateM σ) α}
    (first : Stops action before fault middle) (rest : Returns (handle fault) middle value after) :
    Returns (tryCatch action handle) before value after := by
  unfold Stops at first
  unfold Returns at *
  rw [ExceptT.run_tryCatch, StateT.run_bind, first]
  exact rest

end Stops

/-- However the action ends, its outcome and the state that it leaves are such. -/
def Ends (action : ExceptT ε (StateM σ) α) (before : σ) (post : Except ε α → σ → Prop) : Prop :=
  post (action.run.run before).1 (action.run.run before).2

namespace Ends

variable {post : Except ε α → σ → Prop} {fault : ε}

theorem of_returns {action : ExceptT ε (StateM σ) α} (ran : Returns action before value after)
    (holds : post (.ok value) after) : Ends action before post := by
  unfold Ends
  rw [ran]
  exact holds

theorem of_stops {action : ExceptT ε (StateM σ) α} (ran : Stops action before fault after)
    (holds : post (.error fault) after) : Ends action before post := by
  unfold Ends
  rw [ran]
  exact holds

theorem returns {action : ExceptT ε (StateM σ) α}
    (ended : Ends action before fun outcome last => outcome = .ok value ∧ last = after) :
    Returns action before value after :=
  Prod.ext ended.1 ended.2

theorem at_returns {action : ExceptT ε (StateM σ) α} (ended : Ends action before post)
    (ran : Returns action before value after) : post (.ok value) after := by
  unfold Ends at ended
  rwa [ran] at ended

theorem mono {action : ExceptT ε (StateM σ) α} {weaker : Except ε α → σ → Prop}
    (ended : Ends action before post)
    (weaken : ∀ outcome after, post outcome after → weaker outcome after) :
    Ends action before weaker :=
  weaken _ _ ended

/-- What follows an action that returns ends the sequence. -/
theorem following {action : ExceptT ε (StateM σ) α} {next : α → ExceptT ε (StateM σ) β}
    {last : Except ε β → σ → Prop} (first : Returns action before value middle)
    (rest : Ends (next value) middle last) : Ends (action >>= next) before last := by
  unfold Ends
  rw [first.run_bind]
  exact rest

/-- A sequence ends with its first action if that fails, and with what follows it otherwise. -/
theorem andThen {action : ExceptT ε (StateM σ) α} {next : α → ExceptT ε (StateM σ) β}
    {last : Except ε β → σ → Prop} (first : Ends action before post)
    (failed : ∀ fault after, post (.error fault) after → last (.error fault) after)
    (rest : ∀ value middle, post (.ok value) middle → Ends (next value) middle last) :
    Ends (action >>= next) before last := by
  unfold Ends at first
  cases ran : action.run.run before with
  | mk outcome middle =>
    rw [ran] at first
    cases outcome with
    | error fault => exact of_stops (Stops.andThen ran) (failed fault middle first)
    | ok value => exact following ran (rest value middle first)

end Ends

section Attempts

variable {ε σ γ : Type} {state after : σ} {call : γ} {calls front back : List γ}

def rejection? (act : γ → ExceptT ε (StateM σ) Unit) (state : σ) (call : γ) : Option ε :=
  match ((act call).run.run state).1 with
  | .ok _ => none
  | .error error => some error

/-- The state after calls that are made one after the other, whatever becomes of each. -/
def attempts (act : γ → ExceptT ε (StateM σ) Unit) (state : σ) (calls : List γ) : σ :=
  calls.foldl (fun state call => ((act call).run.run state).2) state

def accepted (act : γ → ExceptT ε (StateM σ) Unit) (state : σ) : List γ → List γ
  | [] => []
  | call :: rest =>
    let later := accepted act ((act call).run.run state).2 rest
    if (rejection? act state call).isNone then call :: later else later

variable {act : γ → ExceptT ε (StateM σ) Unit} {error : ε}

theorem rejection?_of_returns (ran : Returns (act call) state () after) :
    rejection? act state call = none := by
  unfold Returns at ran
  rw [rejection?, ran]

theorem rejection?_of_stops (stopped : Stops (act call) state error after) :
    rejection? act state call = some error := by
  unfold Stops at stopped
  rw [rejection?, stopped]

theorem attempts_cons_of_returns (ran : Returns (act call) state () after) :
    attempts act state (call :: calls) = attempts act after calls := by
  unfold Returns at ran
  rw [attempts, List.foldl_cons, ran]
  rfl

theorem attempts_cons_of_stops (stopped : Stops (act call) state error after) :
    attempts act state (call :: calls) = attempts act after calls := by
  unfold Stops at stopped
  rw [attempts, List.foldl_cons, stopped]
  rfl

theorem attempts_append :
    attempts act state (front ++ back) = attempts act (attempts act state front) back :=
  List.foldl_append

theorem accepted_cons_of_returns (ran : Returns (act call) state () after) :
    accepted act state (call :: calls) = call :: accepted act after calls := by
  have passed := rejection?_of_returns ran
  unfold Returns at ran
  simp [accepted, passed, ran]

theorem accepted_cons_of_stops (stopped : Stops (act call) state error after) :
    accepted act state (call :: calls) = accepted act after calls := by
  have refused := rejection?_of_stops stopped
  unfold Stops at stopped
  simp [accepted, refused, stopped]

end Attempts

end BuildRules
