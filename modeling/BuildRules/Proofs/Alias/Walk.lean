import BuildRules.Proofs.Alias.DepthFirst
import Mathlib.Data.List.Chain
import Mathlib.Logic.Relation

namespace BuildRules
namespace AliasTable

def Successor (table : AliasTable) (source target : String) : Prop :=
  table.has target = true ∧ ∃ entry, table.find? source = some entry ∧
    (Token.word target ∈ entry.tokens ∨ Token.reference target ∈ entry.tokens)

def Reachable (table : AliasTable) : String → String → Prop :=
  Relation.ReflTransGen table.Successor

def Cycle (table : AliasTable) (name : String) : Prop :=
  Relation.TransGen table.Successor name name

def Dangling (table : AliasTable) (source missing : String) : Prop :=
  table.has missing = false ∧ ∃ entry, table.find? source = some entry ∧
    Token.reference missing ∈ entry.tokens

structure WalkFrom (table : AliasTable) (name : String) (walk : List String) : Prop where
  start : walk.head? = some name
  steps : walk.IsChain table.Successor

variable {table : AliasTable} {name source target missing : String} {walk : List String}

theorem Reachable.declared (reached : table.Reachable name target)
    (declared : table.has name = true) : table.has target = true := by
  cases reached with
  | refl => exact declared
  | tail _ step => exact step.1

theorem WalkFrom.prepend (step : table.Successor source name)
    (walked : table.WalkFrom name walk) : table.WalkFrom source (source :: walk) := by
  refine ⟨rfl, List.isChain_cons.mpr ⟨?_, walked.steps⟩⟩
  intro next head
  have same : name = next := Option.some.inj (walked.start.symm.trans head)
  exact same ▸ step

/-- A walk may be begun anywhere on the way to its start. -/
theorem WalkFrom.extend (reached : table.Reachable source name)
    (walked : table.WalkFrom name walk) :
    ∃ longer, table.WalkFrom source longer ∧ walk.length ≤ longer.length := by
  induction reached using Relation.ReflTransGen.head_induction_on with
  | refl => exact ⟨walk, walked, Nat.le_refl _⟩
  | head step _ ih =>
    obtain ⟨longer, extended, bound⟩ := ih
    exact ⟨_, extended.prepend step, Nat.le_succ_of_le bound⟩

/-- Walks around a cycle have any length. -/
theorem Cycle.unbounded (cycle : table.Cycle name) (length : Nat) :
    ∃ walk, table.WalkFrom name walk ∧ length ≤ walk.length := by
  induction length with
  | zero => exact ⟨[name], ⟨rfl, List.isChain_singleton name⟩, Nat.zero_le _⟩
  | succ length ih =>
    obtain ⟨walk, walked, bound⟩ := ih
    obtain ⟨next, step, back⟩ := Relation.TransGen.head'_iff.mp cycle
    obtain ⟨longer, extended, more⟩ := walked.extend back
    refine ⟨name :: longer, extended.prepend step, ?_⟩
    have := Nat.le_trans bound more
    simpa using this

theorem WalkFrom.reachable {front rest : List String}
    (walked : table.WalkFrom name (front ++ target :: rest)) : table.Reachable name target := by
  induction front generalizing name with
  | nil =>
    have same : target = name := Option.some.inj walked.start
    exact same ▸ Relation.ReflTransGen.refl
  | cons head front ih =>
    have same : head = name := Option.some.inj walked.start
    subst head
    have steps := walked.steps
    rw [List.cons_append, List.isChain_cons] at steps
    cases front with
    | nil =>
      have step := steps.1 target rfl
      exact Relation.ReflTransGen.single step
    | cons next front =>
      have step := steps.1 next rfl
      exact Relation.ReflTransGen.head step (ih ⟨rfl, steps.2⟩)

/-- A walk that ends where it was before has gone around a cycle. -/
theorem WalkFrom.cycle {path : List String} (walked : table.WalkFrom name path)
    (last : path.getLast? = some target) (visited : target ∈ path.dropLast) :
    table.Reachable name target ∧ table.Cycle target := by
  obtain ⟨front, middle, split⟩ := List.append_of_mem visited
  have whole : path = front ++ target :: (middle ++ [target]) := by
    rw [← List.dropLast_append_getLast? target last, split]
    simp
  subst whole
  refine ⟨walked.reachable, ?_⟩
  have around := (List.isChain_append.mp walked.steps).2.1
  rw [List.isChain_cons] at around
  cases middle with
  | nil => exact Relation.TransGen.single (around.1 target rfl)
  | cons next middle =>
    have step := around.1 next rfl
    have back : table.WalkFrom next (next :: middle ++ target :: []) := ⟨rfl, around.2⟩
    exact Relation.TransGen.head' step back.reachable

end AliasTable
end BuildRules
