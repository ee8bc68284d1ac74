import BuildRules.Proofs.Alias.Table
import Mathlib.Data.List.Nodup

namespace BuildRules
namespace Resolver

variable {table : AliasTable} {maxDepth : Nat} {root : String} {written onPath : List String}
  {frame : Frame} {below : List Frame}

/-- What one turn makes of a stack with a frame on top. -/
inductive Turn (table : AliasTable) (maxDepth : Nat) (root : String)
    (written onPath : List String) (frame : Frame) (below : List Frame) :
    Except ResolutionError Expansion → Prop where
  | leave (finished : frame.entry.tokens[frame.next]? = none) :
      Turn table maxDepth root written onPath frame below
        (.ok ⟨written, below, onPath.filter (· != frame.entry.name)⟩)
  | write {token : Token} {text : String} (here : frame.entry.tokens[frame.next]? = some token)
      (meaning : table.meaning token = .argument text) :
      Turn table maxDepth root written onPath frame below
        (.ok ⟨text :: written, frame.read :: below, onPath⟩)
  | unknown {token : Token} {target : String}
      (here : frame.entry.tokens[frame.next]? = some token)
      (meaning : table.meaning token = .undeclared target) :
      Turn table maxDepth root written onPath frame below
        (.error (.unknown target (some frame.entry.name)))
  | cyclic {token : Token} {entry : Alias} (here : frame.entry.tokens[frame.next]? = some token)
      (meaning : table.meaning token = .alias_ entry) (visited : entry.name ∈ onPath) :
      Turn table maxDepth root written onPath frame below
        (.error (.cyclic root (pathOf (frame.read :: below) ++ [entry.name])))
  | tooDeep {token : Token} {entry : Alias} (here : frame.entry.tokens[frame.next]? = some token)
      (meaning : table.meaning token = .alias_ entry) (fresh : entry.name ∉ onPath)
      (deep : maxDepth ≤ (frame.read :: below).length) :
      Turn table maxDepth root written onPath frame below
        (.error (.tooDeep root (pathOf (frame.read :: below) ++ [entry.name]) maxDepth))
  | enter {token : Token} {entry : Alias} (here : frame.entry.tokens[frame.next]? = some token)
      (meaning : table.meaning token = .alias_ entry) (fresh : entry.name ∉ onPath)
      (shallow : (frame.read :: below).length < maxDepth) :
      Turn table maxDepth root written onPath frame below
        (.ok ⟨written, ⟨entry, 0⟩ :: frame.read :: below, entry.name :: onPath⟩)

theorem turn_advance (table : AliasTable) (maxDepth : Nat) (root : String)
    (written onPath : List String) (frame : Frame) (below : List Frame) :
    Turn table maxDepth root written onPath frame below
      (advance table maxDepth root written onPath frame below) := by
  rw [advance]
  cases here : frame.entry.tokens[frame.next]? with
  | none => exact .leave here
  | some token =>
    dsimp only
    cases meaning : table.meaning token with
    | argument text => exact .write here meaning
    | undeclared target => exact .unknown here meaning
    | alias_ entry =>
      dsimp only
      by_cases visited : entry.name ∈ onPath
      · rw [if_pos (List.contains_iff_mem.mpr visited)]
        exact .cyclic here meaning visited
      · rw [if_neg (mt List.contains_iff_mem.mp visited)]
        by_cases deep : maxDepth ≤ (frame.read :: below).length
        · rw [if_pos deep]
          exact .tooDeep here meaning visited deep
        · rw [if_neg deep]
          exact .enter here meaning visited (Nat.lt_of_not_le deep)

theorem pathOf_cons (frame : Frame) (below : List Frame) :
    pathOf (frame :: below) = pathOf below ++ [frame.entry.name] := by
  simp [pathOf]

theorem length_pathOf (stack : List Frame) : (pathOf stack).length = stack.length := by
  simp [pathOf]

/-- The set holds the names on the stack, which are declared and distinct; no more of them
than the limit; and no frame has read more tokens than its alias has. -/
structure Expansion.Valid (table : AliasTable) (maxDepth : Nat) (state : Expansion) : Prop where
  onPath : ∀ name, name ∈ state.onPath ↔ name ∈ pathOf state.stack
  distinct : (pathOf state.stack).Nodup
  declared : ∀ frame ∈ state.stack, table.find? frame.entry.name = some frame.entry
  short : state.stack.length ≤ maxDepth
  within : ∀ frame ∈ state.stack, frame.next ≤ frame.entry.tokens.length

namespace Expansion.Valid

theorem start {entry : Alias} {name : String} (found : table.find? name = some entry)
    (positive : 0 < maxDepth) : (Expansion.start entry).Valid table maxDepth where
  onPath := fun _ => Iff.rfl
  distinct := List.nodup_singleton _
  declared := by
    intro frame member
    obtain rfl := List.mem_singleton.mp member
    rw [AliasTable.name_of_find? found]
    exact found
  short := positive
  within := by
    intro frame member
    obtain rfl := List.mem_singleton.mp member
    exact Nat.zero_le _

/-- A finished frame is the only one of its name, so its name leaves the set with it. -/
theorem leave (valid : Valid table maxDepth ⟨written, frame :: below, onPath⟩) :
    Valid table maxDepth ⟨written, below, onPath.filter (· != frame.entry.name)⟩ := by
  have distinct := valid.distinct
  rw [pathOf_cons, List.nodup_append] at distinct
  obtain ⟨distinct, -, apart⟩ := distinct
  refine
    { onPath := ?_
      distinct
      declared := fun other member => valid.declared other (List.mem_cons_of_mem _ member)
      short := Nat.le_of_succ_le valid.short
      within := fun other member => valid.within other (List.mem_cons_of_mem _ member) }
  intro name
  rw [List.mem_filter, valid.onPath, pathOf_cons, List.mem_append, List.mem_singleton]
  constructor
  · rintro ⟨earlier | same, different⟩
    · exact earlier
    · simp [same] at different
  · intro earlier
    exact ⟨.inl earlier, by simpa using apart name earlier frame.entry.name⟩

theorem read {token : Token} (valid : Valid table maxDepth ⟨written, frame :: below, onPath⟩)
    (here : frame.entry.tokens[frame.next]? = some token) (arguments : List String) :
    Valid table maxDepth ⟨arguments, frame.read :: below, onPath⟩ where
  onPath := valid.onPath
  distinct := valid.distinct
  declared := by
    obtain ⟨first, others⟩ := List.forall_mem_cons.mp valid.declared
    exact List.forall_mem_cons.mpr ⟨first, others⟩
  short := valid.short
  within := by
    obtain ⟨-, others⟩ := List.forall_mem_cons.mp valid.within
    exact List.forall_mem_cons.mpr ⟨(List.getElem?_eq_some_iff.mp here).1, others⟩

theorem enter {stack : List Frame} {entry : Alias}
    (valid : Valid table maxDepth ⟨written, stack, onPath⟩)
    (found : table.find? entry.name = some entry) (fresh : entry.name ∉ onPath)
    (shallow : stack.length < maxDepth) :
    Valid table maxDepth ⟨written, ⟨entry, 0⟩ :: stack, entry.name :: onPath⟩ where
  onPath := by
    intro name
    rw [List.mem_cons, valid.onPath, pathOf_cons, List.mem_append, List.mem_singleton, or_comm]
  distinct := by
    rw [pathOf_cons, ← List.concat_eq_append, List.nodup_concat]
    exact ⟨mt (valid.onPath entry.name).mpr fresh, valid.distinct⟩
  declared := List.forall_mem_cons.mpr ⟨found, valid.declared⟩
  short := shallow
  within := List.forall_mem_cons.mpr ⟨Nat.zero_le _, valid.within⟩

/-- Every turn keeps the stack valid. -/
theorem advance {after : Expansion}
    (valid : Valid table maxDepth ⟨written, frame :: below, onPath⟩)
    (advanced : advance table maxDepth root written onPath frame below = .ok after) :
    Valid table maxDepth after := by
  have turn := turn_advance table maxDepth root written onPath frame below
  rw [advanced] at turn
  cases turn with
  | leave => exact valid.leave
  | write here => exact valid.read here _
  | enter here meaning fresh shallow =>
    exact (valid.read here written).enter (AliasTable.meaning_alias meaning).1 fresh shallow

end Expansion.Valid

end Resolver
end BuildRules
