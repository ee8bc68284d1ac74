import BuildRules.Proofs.Alias.Exploration
import Mathlib.Data.List.Perm.Subperm

/-! The depth limit only cuts an expansion off. What comes to an end under one limit comes to the
same end under every deeper one, and a limit that is no less than the table is never met. -/
namespace BuildRules

namespace AliasTable

variable {table : AliasTable} {name : String} {walk : List String}

/-- A walk without repetition is no longer than the table. -/
theorem WalkFrom.length_le_size (walked : table.WalkFrom name walk)
    (declared : table.has name = true) (distinct : walk.Nodup) : walk.length ≤ table.size := by
  have inside : walk ⊆ table.names := by
    intro visited member
    obtain ⟨front, rest, split⟩ := List.append_of_mem member
    subst split
    exact List.contains_iff_mem.mp (walked.reachable.declared declared)
  have bound := (List.Nodup.subperm distinct inside).length_le
  rwa [names, List.length_map] at bound

end AliasTable

namespace Resolver

/-- An expansion that the depth limit has cut off. -/
def Cut (outcome : Except ResolutionError (List String)) : Prop :=
  ∃ root path maxDepth, outcome = .error (.tooDeep root path maxDepth)

theorem cut_append {first second : Except ResolutionError (List String)} :
    Cut (append first second) ↔ Cut first ∨ ((∃ front, first = .ok front) ∧ Cut second) := by
  cases first with
  | error error => simp [Cut]
  | ok front => cases second <;> simp [Cut, append_ok, Except.map]

section Deeper

variable {table : AliasTable} {shallow deep : Nat} {root owner : String} {path : List String}

/-- A token that is read below the limit is read alike under a deeper one, if what it enters is. -/
theorem readToken_of_deeper {token : Token} (deeper : shallow ≤ deep)
    (below : ∀ entry : Alias, path.length < shallow →
      ¬ Cut (expand table shallow root (path ++ [entry.name]) entry.name entry.tokens) →
      expand table deep root (path ++ [entry.name]) entry.name entry.tokens =
        expand table shallow root (path ++ [entry.name]) entry.name entry.tokens)
    (uncut : ¬ Cut (readToken table shallow root path owner token)) :
    readToken table deep root path owner token =
      readToken table shallow root path owner token := by
  rw [readToken] at uncut
  rw [readToken, readToken]
  cases meaning : table.meaning token with
  | argument text => rfl
  | undeclared target => rfl
  | alias_ entry =>
    simp only [meaning] at uncut
    dsimp only
    by_cases visited : entry.name ∈ path
    · rw [splice_of_mem entry visited, splice_of_mem entry visited]
    · by_cases short : path.length < shallow
      · rw [splice_enter entry visited short] at uncut ⊢
        rw [splice_enter entry visited (Nat.lt_of_lt_of_le short deeper)]
        exact below entry short uncut
      · rw [splice_of_deep entry visited (Nat.le_of_not_lt short)] at uncut
        exact absurd ⟨root, _, shallow, rfl⟩ uncut

/-- Tokens after the first error are not read under either limit. -/
theorem expand_of_readToken {tokens : List Token}
    (each : ∀ token, ¬ Cut (readToken table shallow root path owner token) →
      readToken table deep root path owner token = readToken table shallow root path owner token)
    (uncut : ¬ Cut (expand table shallow root path owner tokens)) :
    expand table deep root path owner tokens = expand table shallow root path owner tokens := by
  induction tokens with
  | nil => rw [expand_nil, expand_nil]
  | cons token rest ih =>
    rw [expand_cons, cut_append, not_or] at uncut
    obtain ⟨first, later⟩ := uncut
    rw [expand_cons, expand_cons, each token first]
    cases read : readToken table shallow root path owner token with
    | error error => rfl
    | ok front => rw [ih fun cut => later ⟨⟨front, read⟩, cut⟩]

/-- The recursion is that of the expansion under the shallower limit. -/
theorem expand_of_deeper {path : List String} {owner : String} {tokens : List Token}
    (deeper : shallow ≤ deep) (uncut : ¬ Cut (expand table shallow root path owner tokens)) :
    expand table deep root path owner tokens = expand table shallow root path owner tokens := by
  refine expand_of_readToken (fun token => readToken_of_deeper deeper ?_) uncut
  intro entry short uncutBelow
  exact expand_of_deeper deeper uncutBelow
termination_by shallow - path.length
decreasing_by simp; omega

end Deeper

theorem declared_of_tooDeep {resolver : Resolver} {name root : String} {path : List String}
    {maxDepth : Nat} (failed : resolver.resolve name = .error (.tooDeep root path maxDepth)) :
    resolver.table.has name = true := by
  rw [← Bool.not_eq_false, AliasTable.has_eq_false_iff]
  intro missing
  rw [resolve_of_missing missing] at failed
  cases failed

/-- An expansion that its limit has not cut off ends alike under every deeper limit: with the same
arguments, or with the same error. No expansion is cut off where the limit is at least the number
of aliases. -/
theorem limit_only_cuts (table : AliasTable) (name : String) :
    (∀ (shallow deep : Nat) (positive : 0 < shallow) (deeper : shallow ≤ deep),
      ¬ Cut (resolve ⟨table, shallow, positive⟩ name) →
      resolve ⟨table, deep, Nat.lt_of_lt_of_le positive deeper⟩ name =
        resolve ⟨table, shallow, positive⟩ name) ∧
    ∀ (maxDepth : Nat) (positive : 0 < maxDepth), table.size ≤ maxDepth →
      ¬ Cut (resolve ⟨table, maxDepth, positive⟩ name) := by
  constructor
  · intro shallow deep positive deeper uncut
    cases found : table.find? name with
    | none =>
      have first : resolve ⟨table, deep, Nat.lt_of_lt_of_le positive deeper⟩ name =
          .error (.unknown name none) := resolve_of_missing found
      have second : resolve ⟨table, shallow, positive⟩ name = .error (.unknown name none) :=
        resolve_of_missing found
      rw [first, second]
    | some entry =>
      have first : resolve ⟨table, deep, Nat.lt_of_lt_of_le positive deeper⟩ name =
          expand table deep name [name] name entry.tokens := resolve_of_declared found
      have second : resolve ⟨table, shallow, positive⟩ name =
          expand table shallow name [name] name entry.tokens := resolve_of_declared found
      rw [second] at uncut
      rw [first, second]
      exact expand_of_deeper deeper uncut
  · rintro maxDepth positive enough ⟨root, path, limit, failed⟩
    have declared := declared_of_tooDeep failed
    cases resolve_genuine failed with
    | tooDeep walked distinct length =>
      have bound : path.length ≤ table.size := walked.length_le_size declared distinct
      have counted : path.length = maxDepth + 1 := length
      omega

def ring : AliasTable :=
  ⟨[], [⟨"ci", [.word "lint"]⟩, ⟨"lint", [.word "--all", .reference "clippy"]⟩,
    ⟨"clippy", [.word "ci"]⟩], by decide⟩

/-- A limit of two cuts the ring off. Under a limit of three, which is no less than the table, the
ring is closed before the limit is met, and so it is under a limit of five. -/
theorem ring_not_cut :
    Cut (resolve ⟨ring, 2, by decide⟩ "ci") ∧
    ring.size ≤ 3 ∧ ¬ Cut (resolve ⟨ring, 3, by decide⟩ "ci") ∧
    resolve ⟨ring, 5, by decide⟩ "ci" = .error (.cyclic "ci" ["ci", "lint", "clippy", "ci"]) := by
  have found : ring.find? "ci" = some ⟨"ci", [.word "lint"]⟩ := rfl
  have cut : resolve ⟨ring, 2, by decide⟩ "ci" =
      .error (.tooDeep "ci" ["ci", "lint", "clippy"] 2) := by
    rw [resolve_of_declared found]
    simp [expand_cons, readToken, AliasTable.meaning, AliasTable.find?, ring, splice, append_ok,
      Except.map]
  have closed : resolve ⟨ring, 3, by decide⟩ "ci" =
      .error (.cyclic "ci" ["ci", "lint", "clippy", "ci"]) := by
    rw [resolve_of_declared found]
    simp [expand_cons, readToken, AliasTable.meaning, AliasTable.find?, ring, splice, append_ok,
      Except.map]
  have enough : ring.size ≤ 3 := by decide
  have uncut := (limit_only_cuts ring "ci").2 3 (by decide) enough
  have deeper := (limit_only_cuts ring "ci").1 3 5 (by decide) (by decide) uncut
  exact ⟨⟨_, _, _, cut⟩, enough, uncut, deeper.trans closed⟩

end Resolver
end BuildRules
