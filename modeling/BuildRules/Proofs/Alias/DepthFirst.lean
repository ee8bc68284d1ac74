import BuildRules.Proofs.Alias.Stack

/-! The expansion of an alias as a recursion over its tokens. The stack of the resolver is
this recursion written out: each frame has what is left to read at one depth. -/
namespace BuildRules.Resolver

open AliasTable

/-- Arguments of one part and then of another. The first fault counts. -/
def append (first second : Except ResolutionError (List String)) :
    Except ResolutionError (List String) := do
  return (← first) ++ (← second)

mutual

/-- Tokens of an alias read from left to right. The path leads from the root to the alias. -/
def expand (table : AliasTable) (maxDepth : Nat) (root : String) (path : List String)
    (owner : String) : List Token → Except ResolutionError (List String)
  | [] => .ok []
  | .literal text :: rest => append (.ok [text]) (expand table maxDepth root path owner rest)
  | .word text :: rest =>
    match table.find? text with
    | none => append (.ok [text]) (expand table maxDepth root path owner rest)
    | some entry =>
      append (splice table maxDepth root path text entry)
        (expand table maxDepth root path owner rest)
  | .reference name :: rest =>
    match table.find? name with
    | none => .error (.unknown name (some owner))
    | some entry =>
      append (splice table maxDepth root path name entry)
        (expand table maxDepth root path owner rest)
termination_by tokens => (maxDepth - path.length, tokens.length)

/-- What a declared alias stands for where a path meets it. -/
def splice (table : AliasTable) (maxDepth : Nat) (root : String) (path : List String)
    (target : String) (entry : Alias) : Except ResolutionError (List String) :=
  if path.contains target then .error (.cyclic root (path ++ [target]))
  else if maxDepth ≤ path.length then .error (.tooDeep root (path ++ [target]) maxDepth)
  else expand table maxDepth root (path ++ [target]) target entry.tokens
termination_by (maxDepth - path.length, 0)

end

def expandRoot (resolver : Resolver) (name : String) : Except ResolutionError (List String) :=
  match resolver.table.find? name with
  | none => .error (.unknown name none)
  | some entry => expand resolver.table resolver.maxDepth name [name] name entry.tokens

variable {table : AliasTable} {maxDepth : Nat} {root : String}

theorem append_ok (arguments : List String)
    (second : Except ResolutionError (List String)) :
    append (.ok arguments) second = second.map (arguments ++ ·) := by
  cases second <;> rfl

@[simp] theorem append_nil (second : Except ResolutionError (List String)) :
    append (.ok []) second = second := by
  cases second <;> rfl

@[simp] theorem append_error (error : ResolutionError)
    (second : Except ResolutionError (List String)) :
    append (.error error) second = .error error := rfl

theorem append_assoc (first second third : Except ResolutionError (List String)) :
    append (append first second) third = append first (append second third) := by
  cases first with
  | error error => rfl
  | ok arguments =>
    cases second with
    | error error => rfl
    | ok others => cases third <;> simp [append_ok, Except.map]

theorem append_eq_ok {first second : Except ResolutionError (List String)}
    {arguments : List String} :
    append first second = .ok arguments ↔
      ∃ front back, first = .ok front ∧ second = .ok back ∧ arguments = front ++ back := by
  cases first <;> cases second <;> simp [append_ok, Except.map, eq_comm]

theorem append_eq_error {first second : Except ResolutionError (List String)}
    {error : ResolutionError} (failed : append first second = .error error) :
    first = .error error ∨ second = .error error := by
  cases first with
  | error other => exact .inl failed
  | ok front =>
    cases second with
    | error other => exact .inr failed
    | ok back => simp [append_ok, Except.map] at failed

def readToken (table : AliasTable) (maxDepth : Nat) (root : String) (path : List String)
    (owner : String) (token : Token) : Except ResolutionError (List String) :=
  match table.meaning token with
  | .argument text => .ok [text]
  | .undeclared target => .error (.unknown target (some owner))
  | .alias_ entry => splice table maxDepth root path entry.name entry

@[simp] theorem expand_nil (path : List String) (owner : String) :
    expand table maxDepth root path owner [] = .ok [] := by
  rw [expand]

theorem expand_cons (path : List String) (owner : String) (token : Token)
    (rest : List Token) :
    expand table maxDepth root path owner (token :: rest) =
      append (readToken table maxDepth root path owner token)
        (expand table maxDepth root path owner rest) := by
  cases token with
  | literal text => rw [expand, readToken, AliasTable.meaning]
  | word text =>
    rw [expand, readToken, AliasTable.meaning]
    cases found : table.find? text with
    | none => rfl
    | some entry => simp only [name_of_find? found]
  | reference name =>
    rw [expand, readToken, AliasTable.meaning]
    cases found : table.find? name with
    | none => rfl
    | some entry => simp only [name_of_find? found]

theorem splice_of_mem {path : List String} {target : String} (entry : Alias)
    (visited : target ∈ path) :
    splice table maxDepth root path target entry = .error (.cyclic root (path ++ [target])) := by
  simp [splice, visited]

theorem splice_of_deep {path : List String} {target : String} (entry : Alias)
    (fresh : target ∉ path) (deep : maxDepth ≤ path.length) :
    splice table maxDepth root path target entry =
      .error (.tooDeep root (path ++ [target]) maxDepth) := by
  simp [splice, fresh, deep]

theorem splice_enter {path : List String} {target : String} (entry : Alias)
    (fresh : target ∉ path) (shallow : path.length < maxDepth) :
    splice table maxDepth root path target entry =
      expand table maxDepth root (path ++ [target]) target entry.tokens := by
  have shallow : ¬ maxDepth ≤ path.length := by omega
  simp [splice, fresh, shallow]

def Frame.rest (frame : Frame) : List Token := frame.entry.tokens.drop frame.next

theorem Frame.rest_of_finished {frame : Frame}
    (finished : frame.entry.tokens[frame.next]? = none) : frame.rest = [] :=
  List.drop_eq_nil_of_le (List.getElem?_eq_none_iff.mp finished)

theorem Frame.rest_of_here {frame : Frame} {token : Token}
    (here : frame.entry.tokens[frame.next]? = some token) :
    frame.rest = token :: frame.read.rest := by
  obtain ⟨within, rfl⟩ := List.getElem?_eq_some_iff.mp here
  exact List.drop_eq_getElem_cons within

/-- What is left of a stack: its top frame first, each frame below the path that leads
to it. -/
def resume (table : AliasTable) (maxDepth : Nat) (root : String) :
    List Frame → Except ResolutionError (List String)
  | [] => .ok []
  | frame :: below =>
    append (expand table maxDepth root (pathOf (frame :: below)) frame.entry.name frame.rest)
      (resume table maxDepth root below)

/-- What an expansion under way comes to: the arguments so far and those of the frames left. -/
def Expansion.outcome (table : AliasTable) (maxDepth : Nat) (root : String)
    (state : Expansion) : Except ResolutionError (List String) :=
  append (.ok state.written.reverse) (resume table maxDepth root state.stack)

section Turn

variable {written onPath : List String} {frame : Frame} {below : List Frame}

theorem resume_finished (finished : frame.entry.tokens[frame.next]? = none) :
    resume table maxDepth root (frame :: below) = resume table maxDepth root below := by
  rw [resume, Frame.rest_of_finished finished, expand_nil, append_nil]

theorem resume_read {token : Token} (here : frame.entry.tokens[frame.next]? = some token) :
    resume table maxDepth root (frame :: below) =
      append (readToken table maxDepth root (pathOf (frame.read :: below)) frame.entry.name token)
        (resume table maxDepth root (frame.read :: below)) := by
  rw [resume, Frame.rest_of_here here, expand_cons, append_assoc]
  rfl

/-- An error of the token that is read is what the expansion comes to. -/
theorem outcome_of_error {token : Token} {error : ResolutionError}
    (here : frame.entry.tokens[frame.next]? = some token)
    (failed : readToken table maxDepth root (pathOf (frame.read :: below)) frame.entry.name token =
      .error error) :
    Expansion.outcome table maxDepth root ⟨written, frame :: below, onPath⟩ = .error error := by
  simp only [Expansion.outcome, resume_read here, failed, append_error]
  rfl

/-- A turn does not change what an expansion comes to. The set answers for the path because
the stack is valid. -/
theorem outcome_advance
    (valid : Expansion.Valid table maxDepth ⟨written, frame :: below, onPath⟩) :
    Expansion.outcome table maxDepth root ⟨written, frame :: below, onPath⟩ =
      (advance table maxDepth root written onPath frame below).bind
        (Expansion.outcome table maxDepth root) := by
  -- only what a turn is matters from here, not how it was found
  have turn := turn_advance table maxDepth root written onPath frame below
  generalize advance table maxDepth root written onPath frame below = result at turn ⊢
  have path : ∀ name, name ∈ onPath ↔ name ∈ pathOf (frame.read :: below) := valid.onPath
  cases turn with
  | leave finished =>
    simp only [Expansion.outcome, resume_finished finished]
    rfl
  | @write token text here meaning =>
    have given : readToken table maxDepth root (pathOf (frame.read :: below)) frame.entry.name
        token = .ok [text] := by
      rw [readToken, meaning]
    rw [Expansion.outcome, resume_read here, given, ← append_assoc]
    change append (.ok (written.reverse ++ [text])) _ = append (.ok (text :: written).reverse) _
    rw [List.reverse_cons]
  | unknown here meaning =>
    refine outcome_of_error here ?_
    rw [readToken, meaning]
  | cyclic here meaning visited =>
    refine outcome_of_error here ?_
    rw [readToken, meaning]
    exact splice_of_mem _ ((path _).mp visited)
  | tooDeep here meaning fresh deep =>
    refine outcome_of_error here ?_
    rw [readToken, meaning]
    exact splice_of_deep _ (mt (path _).mpr fresh) (by rwa [length_pathOf])
  | @enter token entry here meaning fresh shallow =>
    have entered : readToken table maxDepth root (pathOf (frame.read :: below)) frame.entry.name
        token = expand table maxDepth root (pathOf (⟨entry, 0⟩ :: frame.read :: below))
          entry.name entry.tokens := by
      rw [readToken, meaning, pathOf_cons ⟨entry, 0⟩ (frame.read :: below)]
      exact splice_enter _ (mt (path _).mpr fresh) (by rwa [length_pathOf])
    simp only [Expansion.outcome, resume_read here, entered]
    rfl

end Turn

/-- A valid stack is run to what its expansion comes to. -/
theorem runStack_eq_outcome {state : Expansion} (valid : state.Valid table maxDepth) :
    runStack table maxDepth root state = state.outcome table maxDepth root := by
  fun_induction runStack table maxDepth root state with
  | case1 written onPath => simp [Expansion.outcome, resume, append_ok, Except.map]
  | case2 written frame below onPath error advanced =>
    rw [outcome_advance valid, advanced]
    rfl
  | case3 written frame below onPath after advanced ih =>
    rw [ih (valid.advance advanced), outcome_advance valid, advanced]
    rfl

theorem resolve_of_missing {resolver : Resolver} {name : String}
    (missing : resolver.table.find? name = none) :
    resolver.resolve name = .error (.unknown name none) := by
  simp [resolve, missing]

theorem resolve_of_declared {resolver : Resolver} {name : String} {entry : Alias}
    (found : resolver.table.find? name = some entry) :
    resolver.resolve name =
      expand resolver.table resolver.maxDepth name [name] name entry.tokens := by
  have finished (result : Except ResolutionError (List String)) :
      append result (.ok []) = result := by
    cases result <;> simp [append_ok, Except.map]
  rw [resolve, found]
  dsimp only
  rw [runStack_eq_outcome (.start found resolver.positive), Expansion.outcome, Expansion.start,
    resume, resume, finished, pathOf_cons, name_of_find? found]
  exact append_nil _

/-- The stack gives what the recursion gives: the same arguments in the same order, or the
same error with the same alias, name, path and limit. -/
theorem resolve_eq_expandRoot (resolver : Resolver) (name : String) :
    resolver.resolve name = resolver.expandRoot name := by
  cases found : resolver.table.find? name with
  | none => rw [resolve_of_missing found, expandRoot, found]
  | some entry => rw [resolve_of_declared found, expandRoot, found]

end BuildRules.Resolver
