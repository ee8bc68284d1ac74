import BuildRules.Proofs.Alias.Reordered
import BuildRules.Proofs.Alias.Walk
import Mathlib.Data.Set.Insert

/-! Expansion is local. It looks up no name but those that definitions on its way mention, so
tables that agree on a set of names closed under mention expand each of them alike. -/
namespace BuildRules

def Alias.Mentions (entry : Alias) (target : String) : Prop :=
  Token.word target ∈ entry.tokens ∨ Token.reference target ∈ entry.tokens

namespace AliasTable

/-- Both tables have the names with the same definitions, and these mention no other name that
either table has. -/
structure AgreeOn (names : Set String) (table other : AliasTable) : Prop where
  declared : ∀ name ∈ names, ∃ entry, table.find? name = some entry ∧ other.find? name = some entry
  closed : ∀ name ∈ names, ∀ entry, table.find? name = some entry →
    ∀ target, entry.Mentions target →
      target ∈ names ∨ (table.has target = false ∧ other.has target = false)

variable {names : Set String} {table other : AliasTable} {name : String} {entry : Alias}

theorem AgreeOn.find?_of_mem (agree : AgreeOn names table other) (member : name ∈ names) :
    table.find? name = other.find? name := by
  obtain ⟨entry, found, same⟩ := agree.declared name member
  rw [found, same]

/-- What a definition mentions is looked up alike, also where it is no alias. -/
theorem AgreeOn.find?_of_mentions (agree : AgreeOn names table other) (member : name ∈ names)
    (found : table.find? name = some entry) {target : String} (mentions : entry.Mentions target) :
    table.find? target = other.find? target := by
  rcases agree.closed name member entry found target mentions with inside | ⟨absent, missing⟩
  · exact agree.find?_of_mem inside
  · rw [has_eq_false_iff.mp absent, has_eq_false_iff.mp missing]

theorem AgreeOn.meaning (agree : AgreeOn names table other) (member : name ∈ names)
    (found : table.find? name = some entry) {token : Token} (present : token ∈ entry.tokens) :
    table.meaning token = other.meaning token := by
  cases token with
  | literal text => rfl
  | word text =>
    rw [AliasTable.meaning, AliasTable.meaning,
      agree.find?_of_mentions member found (.inl present)]
  | reference target =>
    rw [AliasTable.meaning, AliasTable.meaning,
      agree.find?_of_mentions member found (.inr present)]

/-- An alias that is entered from a name of the set is one of the set. -/
theorem AgreeOn.enter (agree : AgreeOn names table other) (member : name ∈ names)
    (found : table.find? name = some entry) {token : Token} (present : token ∈ entry.tokens)
    {next : Alias} (meaning : table.meaning token = .alias_ next) : next.name ∈ names := by
  obtain ⟨next_found, which⟩ := meaning_alias meaning
  have mentions : entry.Mentions next.name := by
    rcases which with rfl | rfl
    · exact .inl present
    · exact .inr present
  rcases agree.closed name member entry found next.name mentions with inside | ⟨absent, -⟩
  · exact inside
  · rw [has_eq_false_iff.mp absent] at next_found
    cases next_found

/-- The order of declaration does not count. -/
theorem AgreeOn.of_perm (order : table.aliases.Perm other.aliases) :
    AgreeOn {name | table.has name = true} table other := by
  have same := find?_of_perm order
  constructor
  · intro name declared
    obtain ⟨entry, found⟩ := has_iff_find?.mp declared
    exact ⟨entry, found, (same name).symm.trans found⟩
  · intro name _ entry _ target _
    by_cases declared : table.has target = true
    · exact .inl declared
    · have absent := has_eq_false_iff.mp (Bool.not_eq_true _ ▸ declared)
      exact .inr ⟨has_eq_false_iff.mpr absent, has_eq_false_iff.mpr (same target ▸ absent)⟩

theorem find?_of_add {allowed : Bool} (added : table.add entry allowed = .ok other)
    (different : name ≠ entry.name) : other.find? name = table.find? name := by
  obtain ⟨-, -, -, aliases⟩ := add_eq_ok.mp added
  rw [find?, find?, aliases, List.find?_append]
  simp [different.symm]

/-- Nothing on the way from the root mentions the name. -/
def Ignores (table : AliasTable) (root name : String) : Prop :=
  ∀ owner definition, table.Reachable root owner → table.find? owner = some definition →
    ¬ definition.Mentions name

theorem AgreeOn.of_add {allowed : Bool} (added : table.add entry allowed = .ok other)
    {root : String} (declared : table.has root = true) (ignores : table.Ignores root entry.name) :
    AgreeOn {owner | table.Reachable root owner} table other := by
  constructor
  · intro owner reached
    have present : table.has owner = true := Reachable.declared reached declared
    obtain ⟨definition, found⟩ := has_iff_find?.mp present
    have different : owner ≠ entry.name := by
      rintro rfl
      exact (add_eq_ok.mp added).2.1 (List.contains_iff_mem.mp present)
    exact ⟨definition, found, (find?_of_add added different).trans found⟩
  · intro owner reached definition found target mentions
    by_cases present : table.has target = true
    · exact .inl (reached.tail ⟨present, definition, found, mentions⟩)
    · have different : target ≠ entry.name := by
        rintro rfl
        exact ignores owner definition reached found mentions
      have absent := has_eq_false_iff.mp (Bool.not_eq_true _ ▸ present)
      refine .inr ⟨has_eq_false_iff.mpr absent, has_eq_false_iff.mpr ?_⟩
      rw [find?_of_add added different, absent]

end AliasTable

namespace Resolver

variable {names : Set String} {table other : AliasTable} {maxDepth : Nat} {root name : String}

theorem expand_congr {path : List String} {owner : String} {tokens : List Token}
    (each : ∀ token ∈ tokens, readToken table maxDepth root path owner token =
      readToken other maxDepth root path owner token) :
    expand table maxDepth root path owner tokens =
      expand other maxDepth root path owner tokens := by
  induction tokens with
  | nil => rw [expand_nil, expand_nil]
  | cons token rest ih =>
    obtain ⟨first, each⟩ := List.forall_mem_cons.mp each
    rw [expand_cons, expand_cons, first, ih each]

/-- The recursion is that of the expansion, which stays in the set on every path. -/
theorem expand_agreeOn (agree : AliasTable.AgreeOn names table other) {path : List String}
    {owner : String} {entry : Alias} (member : owner ∈ names)
    (found : table.find? owner = some entry) :
    expand table maxDepth root path owner entry.tokens =
      expand other maxDepth root path owner entry.tokens := by
  refine expand_congr ?_
  intro token present
  rw [readToken, readToken, ← agree.meaning member found present]
  cases meaning : table.meaning token with
  | argument text => rfl
  | undeclared target => rfl
  | alias_ next =>
    dsimp only
    by_cases visited : next.name ∈ path
    · rw [splice_of_mem next visited, splice_of_mem next visited]
    · by_cases shallow : path.length < maxDepth
      · rw [splice_enter next visited shallow, splice_enter next visited shallow]
        exact expand_agreeOn agree (agree.enter member found present meaning)
          (AliasTable.meaning_alias meaning).1
      · have deep : maxDepth ≤ path.length := by omega
        rw [splice_of_deep next visited deep, splice_of_deep next visited deep]
termination_by maxDepth - path.length
decreasing_by simp; omega

theorem resolve_agreeOn (agree : AliasTable.AgreeOn names table other) (member : name ∈ names)
    (positive : 0 < maxDepth) :
    resolve ⟨table, maxDepth, positive⟩ name = resolve ⟨other, maxDepth, positive⟩ name := by
  obtain ⟨entry, found, same⟩ := agree.declared name member
  have first : resolve ⟨table, maxDepth, positive⟩ name =
      expand table maxDepth name [name] name entry.tokens := resolve_of_declared found
  have second : resolve ⟨other, maxDepth, positive⟩ name =
      expand other maxDepth name [name] name entry.tokens := resolve_of_declared same
  rw [first, second]
  exact expand_agreeOn agree member found

/-- A name that neither table has is unknown to both. -/
theorem resolve_of_undeclared (absent : table.find? name = none) (missing : other.find? name = none)
    (positive : 0 < maxDepth) :
    resolve ⟨table, maxDepth, positive⟩ name = resolve ⟨other, maxDepth, positive⟩ name := by
  have first : resolve ⟨table, maxDepth, positive⟩ name = .error (.unknown name none) :=
    resolve_of_missing absent
  have second : resolve ⟨other, maxDepth, positive⟩ name = .error (.unknown name none) :=
    resolve_of_missing missing
  rw [first, second]

/-- Tables that agree on a closed set of names resolve each of them to the same arguments, or to
the same error with its alias, name, path and limit. So neither the order of declaration counts nor
an alias that is added where nothing on the way mentions it. -/
theorem resolve_is_local (positive : 0 < maxDepth) (table other : AliasTable) (name : String) :
    (∀ names, AliasTable.AgreeOn names table other → name ∈ names →
      resolve ⟨table, maxDepth, positive⟩ name = resolve ⟨other, maxDepth, positive⟩ name) ∧
    (table.aliases.Perm other.aliases →
      resolve ⟨table, maxDepth, positive⟩ name = resolve ⟨other, maxDepth, positive⟩ name) ∧
    (∀ entry allowed, table.add entry allowed = .ok other → name ≠ entry.name →
      table.Ignores name entry.name →
      resolve ⟨table, maxDepth, positive⟩ name = resolve ⟨other, maxDepth, positive⟩ name) := by
  refine ⟨fun names agree member => resolve_agreeOn agree member positive, ?_, ?_⟩
  · intro order
    cases found : table.find? name with
    | none =>
      exact resolve_of_undeclared found (AliasTable.find?_of_perm order name ▸ found) positive
    | some entry =>
      have declared : table.has name = true := AliasTable.has_iff_find?.mpr ⟨entry, found⟩
      exact resolve_agreeOn (.of_perm order) declared positive
  · intro entry allowed added different ignores
    cases found : table.find? name with
    | none =>
      exact resolve_of_undeclared found
        ((AliasTable.find?_of_add added different).trans found) positive
    | some definition =>
      have declared : table.has name = true := AliasTable.has_iff_find?.mpr ⟨definition, found⟩
      exact resolve_agreeOn (.of_add added declared ignores) .refl positive

/-- Two aliases, of which the first mentions the second. -/
def near : AliasTable :=
  ⟨[], [⟨"lint", [.reference "clippy", .word "--all"]⟩, ⟨"clippy", [.word "cargo-clippy"]⟩],
    by decide⟩

/-- The same aliases the other way round, among a cycle and a reference to nothing. -/
def far : AliasTable :=
  ⟨[], [⟨"loop", [.word "loop"]⟩, ⟨"clippy", [.word "cargo-clippy"]⟩,
    ⟨"broken", [.reference "nowhere"]⟩, ⟨"lint", [.reference "clippy", .word "--all"]⟩],
    by decide⟩

theorem near_agreeOn_far : AliasTable.AgreeOn {"lint", "clippy"} near far := by
  constructor
  · rintro name (rfl | rfl)
    · exact ⟨_, rfl, rfl⟩
    · exact ⟨_, rfl, rfl⟩
  · rintro name (rfl | rfl) entry found target mentions
    · cases found
      rcases mentions with word | reference
      · obtain rfl : target = "--all" := by simpa using word
        exact .inr ⟨by decide, by decide⟩
      · obtain rfl : target = "clippy" := by simpa using reference
        exact .inl (by simp)
    · cases found
      rcases mentions with word | reference
      · obtain rfl : target = "cargo-clippy" := by simpa using word
        exact .inr ⟨by decide, by decide⟩
      · simp at reference

def turned : AliasTable :=
  ⟨[], [⟨"clippy", [.word "cargo-clippy"]⟩, ⟨"lint", [.reference "clippy", .word "--all"]⟩],
    by decide⟩

/-- The same aliases before a cycle. -/
def grown : AliasTable :=
  ⟨[], [⟨"lint", [.reference "clippy", .word "--all"]⟩, ⟨"clippy", [.word "cargo-clippy"]⟩,
    ⟨"loop", [.word "loop"]⟩], by decide⟩

theorem near_ignores_loop : near.Ignores "lint" "loop" := by
  intro owner definition _ found mentions
  have member := (AliasTable.find?_eq_some_iff.mp found).1
  simp only [near, List.mem_cons, List.not_mem_nil, or_false] at member
  rcases member with rfl | rfl
  · simp [Alias.Mentions] at mentions
  · simp [Alias.Mentions] at mentions

theorem near_resolves_locally : 0 < defaultDepth ∧
    (AliasTable.AgreeOn {"lint", "clippy"} near far ∧ "lint" ∈ ({"lint", "clippy"} : Set String) ∧
      resolve ⟨near, defaultDepth, by decide⟩ "lint" =
        resolve ⟨far, defaultDepth, by decide⟩ "lint") ∧
    (near.aliases.Perm turned.aliases ∧
      resolve ⟨near, defaultDepth, by decide⟩ "lint" =
        resolve ⟨turned, defaultDepth, by decide⟩ "lint") ∧
    (near.add ⟨"loop", [.word "loop"]⟩ false = .ok grown ∧ near.Ignores "lint" "loop" ∧
      resolve ⟨near, defaultDepth, by decide⟩ "lint" =
        resolve ⟨grown, defaultDepth, by decide⟩ "lint") := by
  refine ⟨by decide, ⟨near_agreeOn_far, by simp, ?_⟩, ⟨.swap _ _ _, ?_⟩, rfl, near_ignores_loop, ?_⟩
  · exact (resolve_is_local (by decide) near far "lint").1 _ near_agreeOn_far (by simp)
  · exact (resolve_is_local (by decide) near turned "lint").2.1 (.swap _ _ _)
  · exact (resolve_is_local (by decide) near grown "lint").2.2 ⟨"loop", [.word "loop"]⟩ false rfl
      (by decide) near_ignores_loop

end Resolver
end BuildRules
