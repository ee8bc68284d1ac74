import BuildRules.Alias.Table

/-! Expansion of an alias into plain arguments, depth first. A stack holds the aliases on
the way from the root with the tokens that each has left. -/
namespace BuildRules

inductive ResolutionError where
  /-- No alias of this name, asked for by the caller or by another alias. -/
  | unknown (name : String) (referrer : Option String)
  /-- The path from the root up to the alias that it meets again. -/
  | cyclic (root : String) (path : List String)
  | tooDeep (root : String) (path : List String) (maxDepth : Nat)
deriving DecidableEq

namespace ResolutionError

def message : ResolutionError → String
  | .unknown name _ => "Alias desconhecido: " ++ name
  | .cyclic _ path => "Ciclo de aliases detectado: " ++ " -> ".intercalate path
  | .tooDeep root _ maxDepth =>
    "Expansão de '" ++ root ++ "' excedeu profundidade máxima (" ++ toString maxDepth ++ ")"

def details : ResolutionError → Record
  | .unknown name referrer =>
    let asker := match referrer with
      | some asker => if asker == "" then name else asker
      | none => name
    .ofFields [("alias", .text asker), ("name", .text name)]
  | .cyclic root path => .ofFields [("alias", .text root), ("path", .ofTexts path)]
  | .tooDeep root path maxDepth =>
    .ofFields [("alias", .text root), ("path", .ofTexts path), ("max_depth", .int maxDepth)]

def hint : ResolutionError → String
  | .unknown name _ =>
    "Declare '" ++ name ++ "' na seção 'aliases' da política ou corrija a referência."
  | .cyclic .. => "Remova a referência circular ou marque o token como literal."
  | .tooDeep .. => "Reduza o aninhamento de aliases ou aumente resolver.max_depth."

end ResolutionError

/-- What a token means in a table. -/
inductive AliasTable.Meaning where
  | argument (text : String)
  | alias_ (entry : Alias)
  | undeclared (name : String)

def AliasTable.meaning (table : AliasTable) : Token → AliasTable.Meaning
  | .literal text => .argument text
  | .word text =>
    match table.find? text with
    | some entry => .alias_ entry
    | none => .argument text
  | .reference name =>
    match table.find? name with
    | some entry => .alias_ entry
    | none => .undeclared name

/-- A table and the most aliases that a path of the expansion may have. -/
structure Resolver where
  table : AliasTable
  maxDepth : Nat
  positive : 0 < maxDepth

namespace Resolver

def defaultDepth : Nat := 32

def ofDepth? (table : AliasTable) (maxDepth : Int) : Option Resolver :=
  if positive : 0 < maxDepth.toNat then some ⟨table, maxDepth.toNat, positive⟩ else none

/-- An alias under expansion and the index of its token to read next. -/
structure Frame where
  entry : Alias
  next : Nat

/-- The frame after its next token is read. -/
def Frame.read (frame : Frame) : Frame := { frame with next := frame.next + 1 }

/-- Names on the path of a stack, root first. The stack has its top first. -/
def pathOf (stack : List Frame) : List String :=
  (stack.map fun frame => frame.entry.name).reverse

/-- An expansion under way: the arguments so far, last first, the stack, and the set of the
names on it. -/
structure Expansion where
  written : List String
  stack : List Frame
  onPath : List String

def Expansion.start (entry : Alias) : Expansion := ⟨[], [⟨entry, 0⟩], [entry.name]⟩

/-- One turn of an expansion, with a frame on top of its stack. -/
def advance (table : AliasTable) (maxDepth : Nat) (root : String) (written : List String)
    (onPath : List String) (frame : Frame) (below : List Frame) :
    Except ResolutionError Expansion :=
  match frame.entry.tokens[frame.next]? with
  | none => .ok ⟨written, below, onPath.filter (· != frame.entry.name)⟩
  | some token =>
    let current := frame.read :: below
    match table.meaning token with
    | .argument text => .ok ⟨text :: written, current, onPath⟩
    | .undeclared target => .error (.unknown target (some frame.entry.name))
    | .alias_ entry =>
      let path := pathOf current
      if onPath.contains entry.name then .error (.cyclic root (path ++ [entry.name]))
      else if maxDepth ≤ current.length then
        .error (.tooDeep root (path ++ [entry.name]) maxDepth)
      else .ok ⟨written, ⟨entry, 0⟩ :: current, entry.name :: onPath⟩

/-- More than any alias of the table has tokens. -/
def width (table : AliasTable) : Nat :=
  (table.aliases.map fun entry => entry.tokens.length).foldr max 0 + 2

/-- Weight of a stack: the tokens left in a frame count for more the nearer the frame is to
the root, so that entering an alias weighs less than the token that led to it. -/
def weight (table : AliasTable) (maxDepth : Nat) : List Frame → Nat
  | [] => 0
  | frame :: below =>
    (frame.entry.tokens.length - frame.next + 1) *
        Nat.pow (width table) (maxDepth - (below.length + 1)) +
      weight table maxDepth below

theorem length_tokens_lt_width {table : AliasTable} {entry : Alias}
    (member : entry ∈ table.aliases) : entry.tokens.length + 1 < width table := by
  have bound : ∀ aliases : List Alias, entry ∈ aliases →
      entry.tokens.length ≤
        (aliases.map fun entry => entry.tokens.length).foldr max 0 := by
    intro aliases
    induction aliases with
    | nil => simp
    | cons head rest hypothesis =>
      intro member
      rcases List.mem_cons.mp member with rfl | member
      · exact Nat.le_max_left _ _
      · have := hypothesis member
        simp only [List.map_cons, List.foldr_cons]
        omega
  have := bound table.aliases member
  unfold width
  omega

private theorem mem_of_find? {table : AliasTable} {name : String} {entry : Alias}
    (found : table.find? name = some entry) : entry ∈ table.aliases :=
  List.mem_of_find?_eq_some found

theorem meaning_mem {table : AliasTable} {token : Token} {entry : Alias}
    (found : table.meaning token = .alias_ entry) : entry ∈ table.aliases := by
  cases token with
  | literal text => simp [AliasTable.meaning] at found
  | word text =>
    cases hit : table.find? text with
    | none => simp [AliasTable.meaning, hit] at found
    | some other =>
      simp only [AliasTable.meaning, hit, AliasTable.Meaning.alias_.injEq] at found
      exact found ▸ mem_of_find? hit
  | reference name =>
    cases hit : table.find? name with
    | none => simp [AliasTable.meaning, hit] at found
    | some other =>
      simp only [AliasTable.meaning, hit, AliasTable.Meaning.alias_.injEq] at found
      exact found ▸ mem_of_find? hit

theorem weight_read (table : AliasTable) (maxDepth : Nat) {frame : Frame} (below : List Frame)
    (left : frame.next < frame.entry.tokens.length) :
    weight table maxDepth (frame.read :: below) <
      weight table maxDepth (frame :: below) := by
  have positive : 0 < Nat.pow (width table) (maxDepth - (below.length + 1)) :=
    Nat.pow_pos (by unfold width; omega)
  have split : frame.entry.tokens.length - frame.next =
      frame.entry.tokens.length - (frame.next + 1) + 1 := by omega
  simp only [weight, Frame.read]
  rw [split, Nat.add_mul (frame.entry.tokens.length - (frame.next + 1) + 1) 1, Nat.one_mul]
  omega

theorem weight_leave (table : AliasTable) (maxDepth : Nat) (frame : Frame)
    (below : List Frame) :
    weight table maxDepth below < weight table maxDepth (frame :: below) := by
  have positive : 0 < Nat.pow (width table) (maxDepth - (below.length + 1)) :=
    Nat.pow_pos (by unfold width; omega)
  have := Nat.mul_pos (Nat.succ_pos (frame.entry.tokens.length - frame.next)) positive
  simp only [weight, Nat.succ_eq_add_one] at *
  omega

theorem weight_enter {table : AliasTable} {maxDepth : Nat} {entry : Alias} {frame : Frame}
    (below : List Frame) (left : frame.next < frame.entry.tokens.length)
    (member : entry ∈ table.aliases) (shallow : below.length + 1 < maxDepth) :
    weight table maxDepth (⟨entry, 0⟩ :: frame.read :: below) <
      weight table maxDepth (frame :: below) := by
  have depth : maxDepth - (below.length + 1) = maxDepth - (below.length + 1 + 1) + 1 := by omega
  have split : frame.entry.tokens.length - frame.next =
      frame.entry.tokens.length - (frame.next + 1) + 1 := by omega
  have positive : 0 < Nat.pow (width table) (maxDepth - (below.length + 1 + 1)) :=
    Nat.pow_pos (by unfold width; omega)
  have short := length_tokens_lt_width member
  have entered := Nat.mul_lt_mul_of_pos_right short positive
  simp only [weight, Frame.read, List.length_cons, Nat.sub_zero]
  rw [depth, show Nat.pow (width table) (maxDepth - (below.length + 1 + 1) + 1) =
    Nat.pow (width table) (maxDepth - (below.length + 1 + 1)) * width table from rfl]
  have comm : width table * Nat.pow (width table) (maxDepth - (below.length + 1 + 1)) =
      Nat.pow (width table) (maxDepth - (below.length + 1 + 1)) * width table := Nat.mul_comm _ _
  rw [comm] at entered
  rw [split, Nat.add_mul (frame.entry.tokens.length - (frame.next + 1) + 1) 1, Nat.one_mul]
  omega

/-- Every turn makes the stack lighter. -/
theorem weight_advance {table : AliasTable} {maxDepth : Nat} {root : String}
    {written onPath : List String} {frame : Frame} {below : List Frame} {after : Expansion}
    (advanced : advance table maxDepth root written onPath frame below = .ok after) :
    weight table maxDepth after.stack < weight table maxDepth (frame :: below) := by
  rw [advance] at advanced
  split at advanced
  next =>
    cases advanced
    exact weight_leave ..
  next token present =>
    have left := (List.getElem?_eq_some_iff.mp present).1
    cases meaning : table.meaning token with
    | argument text =>
      rw [meaning] at advanced
      cases advanced
      exact weight_read _ _ below left
    | undeclared target =>
      rw [meaning] at advanced
      cases advanced
    | alias_ entry =>
      simp only [meaning] at advanced
      split at advanced
      next => cases advanced
      next =>
        split at advanced
        next => cases advanced
        next shallow =>
          cases advanced
          rw [List.length_cons] at shallow
          exact weight_enter below left (meaning_mem meaning) (by omega)

/-- An expansion run to its end. -/
def runStack (table : AliasTable) (maxDepth : Nat) (root : String) :
    Expansion → Except ResolutionError (List String)
  | ⟨written, [], _⟩ => .ok written.reverse
  | ⟨written, frame :: below, onPath⟩ =>
    match _advanced : advance table maxDepth root written onPath frame below with
    | .error error => .error error
    | .ok after => runStack table maxDepth root after
termination_by state => weight table maxDepth state.stack
decreasing_by exact weight_advance _advanced

/-- The arguments that an alias stands for. -/
def resolve (resolver : Resolver) (name : String) : Except ResolutionError (List String) :=
  match resolver.table.find? name with
  | none => .error (.unknown name none)
  | some entry => runStack resolver.table resolver.maxDepth name (.start entry)

end Resolver
end BuildRules
