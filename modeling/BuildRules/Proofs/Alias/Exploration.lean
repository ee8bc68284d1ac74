import BuildRules.Proofs.Alias.Walk
import Mathlib.Data.List.Nodup

/-! Expansion takes every walk of the table that starts at its root. It succeeds where all of
them are short and none meets a missing name, and each of its errors exhibits one that is not
so. -/
namespace BuildRules

open AliasTable

/-- What an error of the expansion of a name stands for. -/
inductive ResolutionError.Genuine (table : AliasTable) (maxDepth : Nat) (name : String) :
    ResolutionError → Prop where
  | missing (absent : table.has name = false) : Genuine table maxDepth name (.unknown name none)
  | dangling {source missing : String} (reached : table.Reachable name source)
      (reference : table.Dangling source missing) :
      Genuine table maxDepth name (.unknown missing (some source))
  | cyclic {path : List String} (target : String) (walked : table.WalkFrom name path)
      (distinct : path.dropLast.Nodup) (last : path.getLast? = some target)
      (visited : target ∈ path.dropLast) : Genuine table maxDepth name (.cyclic name path)
  | tooDeep {path : List String} (walked : table.WalkFrom name path) (distinct : path.Nodup)
      (length : path.length = maxDepth + 1) :
      Genuine table maxDepth name (.tooDeep name path maxDepth)

namespace Resolver

variable {table : AliasTable} {maxDepth : Nat} {root owner target : String}
  {path : List String} {entry : Alias} {arguments : List String} {token : Token}

theorem meaning_of_successor (found : table.find? target = some entry)
    (named : token = .word target ∨ token = .reference target) :
    table.meaning token = .alias_ entry := by
  rcases named with rfl | rfl <;> simp [AliasTable.meaning, found]

theorem expand_ok {tokens : List Token}
    (read : expand table maxDepth root path owner tokens = .ok arguments)
    (member : token ∈ tokens) :
    ∃ part, readToken table maxDepth root path owner token = .ok part := by
  induction tokens generalizing arguments with
  | nil => simp at member
  | cons head rest ih =>
    rw [expand_cons, append_eq_ok] at read
    obtain ⟨front, back, first, remaining, _⟩ := read
    rcases List.mem_cons.mp member with same | later
    · exact ⟨front, same ▸ first⟩
    · exact ih remaining later

theorem expand_error {tokens : List Token} {error : ResolutionError}
    (failed : expand table maxDepth root path owner tokens = .error error) :
    ∃ token ∈ tokens, readToken table maxDepth root path owner token = .error error := by
  induction tokens with
  | nil => simp at failed
  | cons head rest ih =>
    rw [expand_cons] at failed
    rcases append_eq_error failed with first | later
    · exact ⟨head, by simp, first⟩
    · obtain ⟨token, member, here⟩ := ih later
      exact ⟨token, List.mem_cons_of_mem _ member, here⟩

/-- Only a path that is short and new to the target leads through it. -/
theorem splice_ok (read : splice table maxDepth root path target entry = .ok arguments) :
    target ∉ path ∧ path.length < maxDepth ∧
      expand table maxDepth root (path ++ [target]) target entry.tokens = .ok arguments := by
  by_cases visited : target ∈ path
  · simp [splice_of_mem entry visited] at read
  · by_cases shallow : path.length < maxDepth
    · exact ⟨visited, shallow, splice_enter entry visited shallow ▸ read⟩
    · have deep : maxDepth ≤ path.length := by omega
      simp [splice_of_deep entry visited deep] at read

/-- An expansion that succeeds has taken every step out of its alias. -/
theorem expand_successor (found : table.find? owner = some entry)
    (read : expand table maxDepth root path owner entry.tokens = .ok arguments)
    (step : table.Successor owner target) :
    ∃ next inner, table.find? target = some next ∧ path.length < maxDepth ∧
      expand table maxDepth root (path ++ [target]) target next.tokens = .ok inner := by
  obtain ⟨declared, source, same, named⟩ := step
  obtain rfl : source = entry := Option.some.inj (same.symm.trans found)
  obtain ⟨next, next_found⟩ := has_iff_find?.mp declared
  have token : ∃ token ∈ source.tokens, token = .word target ∨ token = .reference target := by
    rcases named with word | reference
    · exact ⟨_, word, .inl rfl⟩
    · exact ⟨_, reference, .inr rfl⟩
  obtain ⟨token, member, which⟩ := token
  obtain ⟨part, spliced⟩ := expand_ok read member
  rw [readToken, meaning_of_successor next_found which] at spliced
  simp only [name_of_find? next_found] at spliced
  obtain ⟨_, shallow, entered⟩ := splice_ok spliced
  exact ⟨next, part, next_found, shallow, entered⟩

theorem expand_walk {rest : List String} (found : table.find? owner = some entry)
    (read : expand table maxDepth root path owner entry.tokens = .ok arguments)
    (short : path.length ≤ maxDepth) (steps : (owner :: rest).IsChain table.Successor) :
    path.length + rest.length ≤ maxDepth := by
  induction rest generalizing owner path entry arguments with
  | nil => simpa using short
  | cons next rest ih =>
    rw [List.isChain_cons_cons] at steps
    obtain ⟨following, inner, next_found, shallow, entered⟩ := expand_successor found read steps.1
    have bound := ih next_found entered (by simp; omega) steps.2
    simp only [List.length_append, List.length_singleton] at bound
    simp only [List.length_cons]
    omega

theorem expand_reachable (found : table.find? owner = some entry)
    (read : expand table maxDepth root path owner entry.tokens = .ok arguments)
    (reached : table.Reachable owner target) :
    ∃ next way inner, table.find? target = some next ∧
      expand table maxDepth root way target next.tokens = .ok inner := by
  induction reached with
  | refl => exact ⟨entry, path, arguments, found, read⟩
  | tail _ step ih =>
    obtain ⟨middle, way, outer, middle_found, middle_read⟩ := ih
    obtain ⟨next, inner, next_found, _, entered⟩ := expand_successor middle_found middle_read step
    exact ⟨next, _, inner, next_found, entered⟩

theorem expand_not_dangling {missing : String}
    (read : expand table maxDepth root path owner entry.tokens = .ok arguments)
    (found : table.find? owner = some entry) : ¬ table.Dangling owner missing := by
  rintro ⟨absent, source, same, member⟩
  obtain rfl : source = entry := Option.some.inj (same.symm.trans found)
  obtain ⟨part, given⟩ := expand_ok read member
  simp [readToken, AliasTable.meaning, has_eq_false_iff.mp absent] at given

/-- The path of an expansion: a walk from the root to the alias that is read, which visits no
alias twice. -/
structure Leads (table : AliasTable) (maxDepth : Nat) (root : String) (path : List String)
    (owner : String) : Prop where
  walked : table.WalkFrom root path
  last : path.getLast? = some owner
  distinct : path.Nodup
  short : path.length ≤ maxDepth

theorem Leads.walk_on (leads : Leads table maxDepth root path owner)
    (step : table.Successor owner target) : table.WalkFrom root (path ++ [target]) := by
  constructor
  · rw [List.head?_append, leads.walked.start]
    rfl
  · refine List.isChain_append.mpr ⟨leads.walked.steps, List.isChain_singleton _, ?_⟩
    intro source here next there
    have here : source = owner := Option.some.inj (Eq.trans (Eq.symm here) leads.last)
    have there : target = next := Option.some.inj there
    exact here ▸ there ▸ step

theorem Leads.distinct_on (leads : Leads table maxDepth root path owner)
    (fresh : target ∉ path) : (path ++ [target]).Nodup := by
  rw [← List.concat_eq_append]
  exact (List.nodup_concat path target).mpr ⟨fresh, leads.distinct⟩

theorem Leads.enter (leads : Leads table maxDepth root path owner)
    (step : table.Successor owner target) (fresh : target ∉ path)
    (shallow : path.length < maxDepth) :
    Leads table maxDepth root (path ++ [target]) target :=
  ⟨leads.walk_on step, by simp, leads.distinct_on fresh, by simp; omega⟩

theorem Leads.reachable (leads : Leads table maxDepth root path owner) :
    table.Reachable root owner := by
  have walked := leads.walked
  rw [← List.dropLast_append_getLast? owner leads.last] at walked
  exact walked.reachable

/-- Every error of an expansion is genuine. The recursion is that of the expansion: an error
is met at one token, or below the alias that the token names. -/
theorem expand_genuine {path : List String} {owner : String} {entry : Alias}
    {error : ResolutionError} (leads : Leads table maxDepth root path owner)
    (found : table.find? owner = some entry)
    (failed : expand table maxDepth root path owner entry.tokens = .error error) :
    error.Genuine table maxDepth root := by
  obtain ⟨token, member, here⟩ := expand_error failed
  rw [readToken] at here
  cases meaning : table.meaning token with
  | argument text => simp [meaning] at here
  | undeclared missing =>
    obtain ⟨rfl, absent⟩ := meaning_undeclared meaning
    simp only [meaning, Except.error.injEq] at here
    subst error
    exact .dangling leads.reachable ⟨has_eq_false_iff.mpr absent, entry, found, member⟩
  | alias_ next =>
    simp only [meaning] at here
    obtain ⟨next_found, which⟩ := meaning_alias meaning
    have step : table.Successor owner next.name := by
      refine ⟨has_iff_find?.mpr ⟨next, next_found⟩, entry, found, ?_⟩
      rcases which with rfl | rfl
      · exact .inl member
      · exact .inr member
    -- the name is on the path, or the path is full, or the expansion goes on below the name
    by_cases visited : next.name ∈ path
    · rw [splice_of_mem next visited, Except.error.injEq] at here
      subst error
      exact .cyclic next.name (leads.walk_on step) (by simpa using leads.distinct) (by simp)
        (by simpa using visited)
    · by_cases shallow : path.length < maxDepth
      · rw [splice_enter next visited shallow] at here
        exact expand_genuine (leads.enter step visited shallow) next_found here
      · have deep : maxDepth ≤ path.length := by omega
        rw [splice_of_deep next visited deep, Except.error.injEq] at here
        subst error
        have full : path.length = maxDepth := Nat.le_antisymm leads.short deep
        exact .tooDeep (leads.walk_on step) (leads.distinct_on visited) (by simp [full])
termination_by maxDepth - path.length
decreasing_by simp; omega

/-- The root alone is a path, since every limit admits one alias. -/
theorem Leads.single (resolver : Resolver) (name : String) :
    Leads resolver.table resolver.maxDepth name [name] name :=
  ⟨⟨rfl, List.isChain_singleton name⟩, rfl, by simp, resolver.positive⟩

theorem resolve_genuine {resolver : Resolver} {name : String} {error : ResolutionError}
    (failed : resolver.resolve name = .error error) :
    error.Genuine resolver.table resolver.maxDepth name := by
  cases found : resolver.table.find? name with
  | none =>
    rw [resolve_of_missing found, Except.error.injEq] at failed
    subst error
    exact .missing (has_eq_false_iff.mpr found)
  | some entry =>
    rw [resolve_of_declared found] at failed
    exact expand_genuine (.single resolver name) found failed

/-- What makes a name expand: it is declared, nothing that it reaches refers to a missing
name, and no walk from it visits more aliases than the limit. -/
structure Resolvable (resolver : Resolver) (name : String) : Prop where
  declared : resolver.table.has name = true
  closed : ∀ source missing, resolver.table.Reachable name source →
    ¬ resolver.table.Dangling source missing
  short : ∀ walk, resolver.table.WalkFrom name walk → walk.length ≤ resolver.maxDepth

theorem resolvable_of_resolve {resolver : Resolver} {name : String} {arguments : List String}
    (resolved : resolver.resolve name = .ok arguments) : resolver.Resolvable name := by
  cases found : resolver.table.find? name with
  | none => simp [resolve_of_missing found] at resolved
  | some entry =>
    rw [resolve_of_declared found] at resolved
    refine ⟨has_iff_find?.mpr ⟨entry, found⟩, ?_, ?_⟩
    · intro source missing reached
      obtain ⟨next, way, inner, next_found, read⟩ := expand_reachable found resolved reached
      exact expand_not_dangling read next_found
    · intro walk walked
      cases walk with
      | nil => simp
      | cons head rest =>
        obtain rfl : head = name := Option.some.inj walked.start
        have bound := expand_walk found resolved resolver.positive walked.steps
        simp only [List.length_singleton] at bound
        simp only [List.length_cons]
        omega

/-- Going around a reachable cycle makes a walk longer than any limit. -/
theorem not_resolvable_of_cycle {resolver : Resolver} {name target : String}
    (reached : resolver.table.Reachable name target) (cycle : resolver.table.Cycle target) :
    ¬ resolver.Resolvable name := by
  intro resolvable
  obtain ⟨around, walked, long⟩ := cycle.unbounded (resolver.maxDepth + 1)
  obtain ⟨walk, whole, longer⟩ := walked.extend reached
  have bound := resolvable.short walk whole
  omega

theorem not_resolvable_of_genuine {resolver : Resolver} {name : String}
    {error : ResolutionError} (genuine : error.Genuine resolver.table resolver.maxDepth name) :
    ¬ resolver.Resolvable name := by
  intro resolvable
  cases genuine with
  | missing absent => simp [resolvable.declared] at absent
  | dangling reached reference => exact resolvable.closed _ _ reached reference
  | cyclic target walked distinct last visited =>
    obtain ⟨reached, cycle⟩ := walked.cycle last visited
    exact not_resolvable_of_cycle reached cycle resolvable
  | tooDeep walked distinct length =>
    have bound := resolvable.short _ walked
    omega

/-- Expansion succeeds exactly for the resolvable names, and fails with an error that exhibits
why a name is none of them. So no cycle is reported where none is reachable, and a reachable
cycle is never passed over. -/
theorem resolve_explores (resolver : Resolver) (name : String) :
    ((∃ arguments, resolver.resolve name = .ok arguments) ↔ resolver.Resolvable name) ∧
    (∀ error, resolver.resolve name = .error error →
      error.Genuine resolver.table resolver.maxDepth name) ∧
    ((∀ target, resolver.table.Reachable name target → ¬ resolver.table.Cycle target) →
      ∀ root path, resolver.resolve name ≠ .error (.cyclic root path)) ∧
    (∀ target, resolver.table.Reachable name target → resolver.table.Cycle target →
      ∀ arguments, resolver.resolve name ≠ .ok arguments) := by
  refine ⟨⟨?_, ?_⟩, fun _ failed => resolve_genuine failed, ?_, ?_⟩
  · rintro ⟨arguments, resolved⟩
    exact resolvable_of_resolve resolved
  · intro resolvable
    cases result : resolver.resolve name with
    | ok arguments => exact ⟨arguments, rfl⟩
    | error error => exact absurd resolvable (not_resolvable_of_genuine (resolve_genuine result))
  · intro acyclic root path failed
    cases resolve_genuine failed with
    | cyclic target walked distinct last visited =>
      obtain ⟨reached, cycle⟩ := walked.cycle last visited
      exact acyclic target reached cycle
  · intro target reached cycle arguments resolved
    exact not_resolvable_of_cycle reached cycle (resolvable_of_resolve resolved)

end Resolver
end BuildRules
