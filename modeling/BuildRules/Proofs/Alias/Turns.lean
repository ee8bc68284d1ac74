import BuildRules.Proofs.Alias.Stack
import Mathlib.Algebra.Group.Nat.Defs

namespace BuildRules.Resolver

section Loop

variable {table : AliasTable} {maxDepth : Nat} {root : String} {count : Nat}
  {before after : Expansion}

/-- So many turns, one after the other, lead from one expansion to another. -/
inductive Turns (table : AliasTable) (maxDepth : Nat) (root : String) :
    Nat → Expansion → Expansion → Prop where
  | none (state : Expansion) : Turns table maxDepth root 0 state state
  | more {count : Nat} {written onPath : List String} {frame : Frame} {below : List Frame}
      {next last : Expansion}
      (advanced : advance table maxDepth root written onPath frame below = .ok next)
      (later : Turns table maxDepth root count next last) :
      Turns table maxDepth root (count + 1) ⟨written, frame :: below, onPath⟩ last

/-- No turn follows: the stack is empty, or the turn fails. -/
inductive Halts (table : AliasTable) (maxDepth : Nat) (root : String) :
    Expansion → Except ResolutionError (List String) → Prop where
  | finished (written onPath : List String) :
      Halts table maxDepth root ⟨written, [], onPath⟩ (.ok written.reverse)
  | failed {written onPath : List String} {frame : Frame} {below : List Frame}
      {error : ResolutionError}
      (advanced : advance table maxDepth root written onPath frame below = .error error) :
      Halts table maxDepth root ⟨written, frame :: below, onPath⟩ (.error error)

theorem Turns.valid (turns : Turns table maxDepth root count before after)
    (valid : before.Valid table maxDepth) : after.Valid table maxDepth := by
  induction turns with
  | none state => exact valid
  | more advanced _ ih => exact ih (valid.advance advanced)

/-- Each turn takes some of the weight of the stack. -/
theorem Turns.weight_le (turns : Turns table maxDepth root count before after) :
    count + weight table maxDepth after.stack ≤ weight table maxDepth before.stack := by
  induction turns with
  | none state => exact Nat.le_of_eq (Nat.zero_add _)
  | @more count written onPath frame below next last advanced _ ih =>
    have lighter : weight table maxDepth next.stack < weight table maxDepth (frame :: below) :=
      weight_advance advanced
    exact Nat.le_trans (by omega) lighter

theorem exists_halts (table : AliasTable) (maxDepth : Nat) (root : String) (state : Expansion) :
    ∃ count last, Turns table maxDepth root count state last ∧
      Halts table maxDepth root last (runStack table maxDepth root state) := by
  fun_induction runStack table maxDepth root state with
  | case1 written onPath => exact ⟨0, _, .none _, .finished written onPath⟩
  | case2 written frame below onPath error failed =>
    exact ⟨0, _, .none _, .failed failed⟩
  | case3 written frame below onPath after advanced ih =>
    obtain ⟨count, last, turns, halts⟩ := ih
    exact ⟨count + 1, last, .more advanced turns, halts⟩

theorem weight_start_lt {entry : Alias} (member : entry ∈ table.aliases) (positive : 0 < maxDepth) :
    weight table maxDepth (Expansion.start entry).stack < width table ^ maxDepth := by
  have power : 0 < width table ^ (maxDepth - 1) := Nat.pow_pos (by unfold width; omega)
  calc weight table maxDepth (Expansion.start entry).stack
      = (entry.tokens.length + 1) * width table ^ (maxDepth - 1) := rfl
    _ < width table * width table ^ (maxDepth - 1) :=
        Nat.mul_lt_mul_of_pos_right (length_tokens_lt_width member) power
    _ = width table ^ maxDepth := by
        rw [← Nat.pow_succ', Nat.succ_eq_add_one, Nat.sub_add_cancel positive]

end Loop

/-- The loop from an alias: every turn finds the set of the path to hold the names on the stack,
which are declared and distinct, no more frames than the limit, and no frame beyond the end of its
alias. There are only so many turns, and the last one leaves the result. -/
structure Controlled (resolver : Resolver) (name : String) (entry : Alias) : Prop where
  valid : ∀ count state,
    Turns resolver.table resolver.maxDepth name count (.start entry) state →
      state.Valid resolver.table resolver.maxDepth
  bounded : ∀ count state,
    Turns resolver.table resolver.maxDepth name count (.start entry) state →
      count < width resolver.table ^ resolver.maxDepth
  halts : ∃ count last,
    Turns resolver.table resolver.maxDepth name count (.start entry) last ∧
      Halts resolver.table resolver.maxDepth name last (resolver.resolve name)

/-- Whatever the table and the limit are, an expansion is refused at once or its loop ends. -/
theorem resolve_controlled (resolver : Resolver) (name : String) :
    (resolver.table.find? name = none ∧ resolver.resolve name = .error (.unknown name none)) ∨
      ∃ entry, resolver.table.find? name = some entry ∧ Controlled resolver name entry := by
  cases found : resolver.table.find? name with
  | none =>
    left
    exact ⟨rfl, by rw [resolve, found]⟩
  | some entry =>
    right
    have resolved : resolver.resolve name =
        runStack resolver.table resolver.maxDepth name (.start entry) := by
      rw [resolve, found]
    refine ⟨entry, rfl, ?_, ?_, ?_⟩
    · intro count state turns
      exact turns.valid (.start found resolver.positive)
    · intro count state turns
      have light := weight_start_lt (List.mem_of_find?_eq_some found) resolver.positive
      have passed := turns.weight_le
      omega
    · rw [resolved]
      exact exists_halts resolver.table resolver.maxDepth name (.start entry)

end BuildRules.Resolver
