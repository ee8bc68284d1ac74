import BuildRules.Proofs.Alias.DepthFirst
import BuildRules.Proofs.Alias.Section

namespace BuildRules

def switchArguments : Option VendorOverride → List String
  | none => []
  | some override => override.arguments

/-- An alias with the switch set, which the reserved alias alone stands for. -/
def Alias.switched (switch : List String) (entry : Alias) : Alias :=
  if entry.name = vendoredName then ⟨entry.name, switch.map .literal⟩ else entry

@[simp] theorem Alias.name_switched (switch : List String) (entry : Alias) :
    (entry.switched switch).name = entry.name := by
  unfold switched
  split <;> rfl

theorem Alias.switched_of_declared {entry : Alias} (declared : entry.name ≠ vendoredName)
    (switch : List String) : entry.switched switch = entry := by
  rw [switched, if_neg declared]

namespace AliasTable

/-- A table that is another one with the switch set. -/
def Switched (switch : List String) (table plain : AliasTable) : Prop :=
  table.aliases = plain.aliases.map (Alias.switched switch)

def Meaning.switched (switch : List String) : Meaning → Meaning
  | .argument text => .argument text
  | .alias_ entry => .alias_ (entry.switched switch)
  | .undeclared name => .undeclared name

variable {plain table : AliasTable} {switch : List String}

theorem Switched.find? (tables : table.Switched switch plain) (name : String) :
    table.find? name = (plain.find? name).map (Alias.switched switch) := by
  have named : (fun entry : Alias => entry.name == name) ∘ Alias.switched switch =
      fun entry => entry.name == name := funext fun entry => by simp
  unfold AliasTable.find?
  rw [tables, List.find?_map, named]

theorem Switched.meaning (tables : table.Switched switch plain) (token : Token) :
    table.meaning token = (plain.meaning token).switched switch := by
  cases token with
  | literal text => rfl
  | word text =>
    simp only [AliasTable.meaning, tables.find?]
    cases plain.find? text <;> rfl
  | reference name =>
    simp only [AliasTable.meaning, tables.find?]
    cases plain.find? name <;> rfl

end AliasTable

namespace Resolver

/-- A part of an expansion for which the switch is not set yet. -/
inductive Piece where
  | argument (text : String)
  /-- Where the arguments of the switch go. -/
  | hole
deriving DecidableEq

def Piece.filled (switch : List String) : Piece → List String
  | .argument text => [text]
  | .hole => switch

def fill (switch : List String) (pieces : List Piece) : List String :=
  pieces.flatMap (Piece.filled switch)

/-- The expansion of tokens that leaves a hole where it meets the reserved alias. -/
def outline (table : AliasTable) (maxDepth : Nat) (root : String) (path : List String)
    (owner : String) : List Token → Except ResolutionError (List Piece)
  | [] => .ok []
  | token :: rest => do
    let first ←
      match table.meaning token with
      | .argument text => .ok [.argument text]
      | .undeclared target => .error (.unknown target (some owner))
      | .alias_ entry =>
        if path.contains entry.name then .error (.cyclic root (path ++ [entry.name]))
        else if maxDepth ≤ path.length then .error (.tooDeep root (path ++ [entry.name]) maxDepth)
        else if entry.name = Alias.vendoredName then .ok [.hole]
        else outline table maxDepth root (path ++ [entry.name]) entry.name entry.tokens
    return first ++ (← outline table maxDepth root path owner rest)
termination_by tokens => (maxDepth - path.length, tokens.length)

def outlineRoot (resolver : Resolver) (name : String) : Except ResolutionError (List Piece) :=
  match resolver.table.find? name with
  | none => .error (.unknown name none)
  | some entry =>
    if name = Alias.vendoredName then .ok [.hole]
    else outline resolver.table resolver.maxDepth name [name] name entry.tokens

variable {plain table : AliasTable} {switch : List String} {maxDepth : Nat} {root : String}

theorem fill_append (switch : List String) (front back : List Piece) :
    fill switch (front ++ back) = fill switch front ++ fill switch back :=
  List.flatMap_append

theorem expand_literals (path : List String) (owner : String) (texts : List String) :
    expand table maxDepth root path owner (texts.map .literal) = .ok texts := by
  induction texts with
  | nil => rw [List.map_nil, expand_nil]
  | cons text rest ih => rw [List.map_cons, expand, ih]; rfl

theorem fill_joined (switch : List String) (first second : Except ResolutionError (List Piece)) :
    (do return (← first) ++ (← second) : Except ResolutionError (List Piece)).map (fill switch) =
      append (first.map (fill switch)) (second.map (fill switch)) := by
  cases first with
  | error error => rfl
  | ok front =>
    cases second with
    | error error => rfl
    | ok back => exact congrArg Except.ok (fill_append switch front back)

theorem readToken_switched (tables : table.Switched switch plain) {path : List String}
    {owner : String} {token : Token} {entry : Alias} (meaning : plain.meaning token = .alias_ entry) :
    readToken table maxDepth root path owner token =
      splice table maxDepth root path entry.name (entry.switched switch) := by
  rw [readToken, tables.meaning, meaning]
  simp only [AliasTable.Meaning.switched, Alias.name_switched]

/-- A table with the switch set gives the outline with its holes filled, or the same error. -/
theorem expand_eq_fill (tables : table.Switched switch plain) (path : List String)
    (owner : String) (tokens : List Token) :
    expand table maxDepth root path owner tokens =
      (outline plain maxDepth root path owner tokens).map (fill switch) := by
  -- the later tokens are alike in all cases, so each case is left with what its token becomes
  have step {path : List String} {owner : String} {token : Token} {rest : List Token}
      {first : Except ResolutionError (List Piece)}
      (read : readToken table maxDepth root path owner token = first.map (fill switch))
      (later : expand table maxDepth root path owner rest =
        (outline plain maxDepth root path owner rest).map (fill switch)) :
      expand table maxDepth root path owner (token :: rest) =
        (do return (← first) ++ (← outline plain maxDepth root path owner rest) :
          Except ResolutionError (List Piece)).map (fill switch) := by
    rw [expand_cons, read, later, fill_joined]
  fun_induction outline plain maxDepth root path owner tokens with
  | case1 => exact expand_nil ..
  | case2 path owner token rest joined text meaning later =>
    exact step (by rw [readToken, tables.meaning, meaning]; rfl) later
  | case3 path owner token rest joined target meaning later =>
    exact step (by rw [readToken, tables.meaning, meaning]; rfl) later
  | case4 path owner token rest joined entry meaning visited later =>
    refine step ?_ later
    rw [readToken_switched tables meaning, splice_of_mem _ (List.contains_iff_mem.mp visited)]
    rfl
  | case5 path owner token rest joined entry meaning fresh deep later =>
    refine step ?_ later
    rw [readToken_switched tables meaning, splice_of_deep _ (mt List.contains_iff_mem.mpr fresh) deep]
    rfl
  | case6 path owner token rest joined entry meaning fresh shallow reserved later =>
    refine step ?_ later
    rw [readToken_switched tables meaning,
      splice_enter _ (mt List.contains_iff_mem.mpr fresh) (Nat.not_le.mp shallow),
      Alias.switched, if_pos reserved, expand_literals]
    simp [Except.map, fill, Piece.filled]
  | case7 path owner token rest joined entry meaning fresh shallow declared later entered =>
    refine step ?_ later
    rw [readToken_switched tables meaning,
      splice_enter _ (mt List.contains_iff_mem.mpr fresh) (Nat.not_le.mp shallow),
      Alias.switched_of_declared declared]
    exact entered

theorem resolve_eq_fill (tables : table.Switched switch plain) (positive : 0 < maxDepth)
    (name : String) :
    resolve ⟨table, maxDepth, positive⟩ name =
      (outlineRoot ⟨plain, maxDepth, positive⟩ name).map (fill switch) := by
  have found := tables.find? name
  cases held : plain.find? name with
  | none =>
    rw [held] at found
    simp only [outlineRoot, held]
    exact resolve_of_missing found
  | some entry =>
    rw [held] at found
    simp only [outlineRoot, held]
    rw [resolve_of_declared found]
    have named := AliasTable.name_of_find? held
    split
    next reserved =>
      rw [Alias.switched, if_pos (named.trans reserved), expand_literals]
      simp [Except.map, fill, Piece.filled]
    next declared =>
      rw [Alias.switched_of_declared (named ▸ declared)]
      exact expand_eq_fill tables ..

def Unswitched (tokens : List Token) : Prop :=
  Token.word Alias.vendoredName ∉ tokens ∧ Token.reference Alias.vendoredName ∉ tokens

theorem Unswitched.tail {token : Token} {rest : List Token} (unswitched : Unswitched (token :: rest)) :
    Unswitched rest :=
  ⟨fun member => unswitched.1 (List.mem_cons_of_mem _ member),
    fun member => unswitched.2 (List.mem_cons_of_mem _ member)⟩

theorem Unswitched.declared {token : Token} {rest : List Token} {entry : Alias}
    (unswitched : Unswitched (token :: rest)) (meaning : plain.meaning token = .alias_ entry) :
    entry.name ≠ Alias.vendoredName := by
  intro reserved
  rcases (AliasTable.meaning_alias meaning).2 with word | reference
  · exact unswitched.1 (by rw [word, reserved]; exact List.mem_cons_self)
  · exact unswitched.2 (by rw [reference, reserved]; exact List.mem_cons_self)

/-- Where no token names the reserved alias there is nothing to fill. -/
theorem outline_unswitched (aliases : ∀ entry ∈ plain.aliases, Unswitched entry.tokens)
    {path : List String} {owner : String} {tokens : List Token} (unswitched : Unswitched tokens)
    {pieces : List Piece} (outlined : outline plain maxDepth root path owner tokens = .ok pieces) :
    Piece.hole ∉ pieces := by
  have step {path : List String} {owner : String} {rest : List Token} {pieces : List Piece}
      {first : Except ResolutionError (List Piece)}
      (outlined : (do return (← first) ++ (← outline plain maxDepth root path owner rest) :
        Except ResolutionError (List Piece)) = .ok pieces)
      (read : ∀ front, first = .ok front → Piece.hole ∉ front)
      (later : ∀ back, outline plain maxDepth root path owner rest = .ok back →
        Piece.hole ∉ back) : Piece.hole ∉ pieces := by
    obtain ⟨front, begun, outlined⟩ := bind_eq_ok.mp outlined
    obtain ⟨back, ended, outlined⟩ := bind_eq_ok.mp outlined
    cases outlined
    rw [List.mem_append]
    rintro (member | member)
    · exact read front begun member
    · exact later back ended member
  fun_induction outline plain maxDepth root path owner tokens generalizing pieces with
  | case1 =>
    cases outlined
    exact List.not_mem_nil
  | case2 path owner token rest joined text meaning later =>
    refine step outlined ?_ fun back => later unswitched.tail
    intro front read
    cases read
    simp
  | case3 path owner token rest joined target meaning later => cases outlined
  | case4 path owner token rest joined entry meaning visited later => cases outlined
  | case5 path owner token rest joined entry meaning fresh deep later => cases outlined
  | case6 path owner token rest joined entry meaning fresh shallow reserved later =>
    exact absurd reserved (unswitched.declared meaning)
  | case7 path owner token rest joined entry meaning fresh shallow declared later entered =>
    exact step outlined (fun front => entered (aliases entry (meaning_mem meaning)))
      fun back => later unswitched.tail

theorem outlineRoot_unswitched (aliases : ∀ entry ∈ plain.aliases, Unswitched entry.tokens)
    (positive : 0 < maxDepth) {name : String} (declared : name ≠ Alias.vendoredName)
    {pieces : List Piece} (outlined : outlineRoot ⟨plain, maxDepth, positive⟩ name = .ok pieces) :
    Piece.hole ∉ pieces := by
  unfold outlineRoot at outlined
  split at outlined
  next => cases outlined
  next entry found =>
    rw [if_neg declared] at outlined
    exact outline_unswitched aliases (aliases entry (List.mem_of_find?_eq_some found)) outlined

theorem vendoredAlias_eq (override : Option VendorOverride) :
    vendoredAlias override = (vendoredAlias none).switched (switchArguments override) := by
  cases override <;> rfl

/-- A section that is accepted with one switch is accepted with every other, and the tables differ
in the reserved alias alone. -/
theorem tables_of_section {section_ : Value} {override : Option VendorOverride}
    (accepted : AliasTable.ofSection section_ [vendoredAlias override] = .ok table) :
    ∃ plain, AliasTable.ofSection section_ [vendoredAlias none] = .ok plain ∧
      ∀ other, ∃ switched, AliasTable.ofSection section_ [vendoredAlias other] = .ok switched ∧
        switched.Switched (switchArguments other) plain := by
  obtain ⟨entries, declared, read, parses, distinct, -, -⟩ :=
    (AliasTable.ofSection_eq_ok rfl).mp accepted
  have made (other : Option VendorOverride) :
      ∃ switched, AliasTable.ofSection section_ [vendoredAlias other] = .ok switched ∧
        switched.aliases = vendoredAlias other :: declared :=
    ⟨⟨[Alias.vendoredName], vendoredAlias other :: declared, distinct⟩,
      (AliasTable.ofSection_eq_ok rfl).mpr
        ⟨entries, declared, read, parses, distinct, rfl, rfl⟩, rfl⟩
  obtain ⟨plain, plainMade, plainAliases⟩ := made none
  refine ⟨plain, plainMade, fun other => ?_⟩
  obtain ⟨switched, switchedMade, aliases⟩ := made other
  refine ⟨switched, switchedMade, ?_⟩
  have kept : declared.map (Alias.switched (switchArguments other)) = declared := by
    conv_rhs => rw [← List.map_id declared]
    refine List.map_congr_left fun entry member => ?_
    apply Alias.switched_of_declared
    rintro reserved
    have free : Alias.vendoredName ∉ declared.map Alias.name := (List.nodup_cons.mp distinct).1
    exact free (reserved ▸ List.mem_map_of_mem member)
  rw [AliasTable.Switched, aliases, plainAliases, List.map_cons, kept, ← vendoredAlias_eq]

/-- The vendor switch fills the places where the reserved alias is met, and changes nothing else:
for every switch a section has one outline, or one error, and what is resolved is that outline
filled. Literals never make a place of this kind. -/
theorem resolve_with_switch {section_ : Value} {override : Option VendorOverride}
    (accepted : AliasTable.ofSection section_ [vendoredAlias override] = .ok table) :
    ∃ plain, AliasTable.ofSection section_ [vendoredAlias none] = .ok plain ∧
      (∀ other, ∃ switched, AliasTable.ofSection section_ [vendoredAlias other] = .ok switched ∧
        ∀ (maxDepth : Nat) (positive : 0 < maxDepth) (name : String),
          resolve ⟨switched, maxDepth, positive⟩ name =
            (outlineRoot ⟨plain, maxDepth, positive⟩ name).map (fill (switchArguments other))) ∧
      ((∀ entry ∈ plain.aliases, Unswitched entry.tokens) →
        ∀ (maxDepth : Nat) (positive : 0 < maxDepth) (name : String), name ≠ Alias.vendoredName →
          ∀ pieces, outlineRoot ⟨plain, maxDepth, positive⟩ name = .ok pieces →
            Piece.hole ∉ pieces) := by
  obtain ⟨plain, plainMade, switches⟩ := tables_of_section accepted
  refine ⟨plain, plainMade, ?_, ?_⟩
  · intro other
    obtain ⟨switched, made, tables⟩ := switches other
    exact ⟨switched, made, fun maxDepth positive name => resolve_eq_fill tables positive name⟩
  · intro aliases maxDepth positive name declared pieces outlined
    exact outlineRoot_unswitched aliases positive declared outlined

example : outlineRoot ⟨⟨[], [⟨"__vendored", []⟩,
      ⟨"v-check", [.word "__vendored", .word "check", .literal "__vendored"]⟩], by decide⟩,
    2, by decide⟩ "v-check" = .ok [.hole, .argument "check", .argument "__vendored"] := by cbv

/-- An alias that is switched, and one that only spells the reserved name. -/
def switchedSection : Value :=
  .ofFields [("v-check", .text "__vendored check"),
    ("show", .list [.text "echo", .text "\\__vendored"]),
    ("both", .text "v-check show")]

def registry : VendorOverride := ⟨.ofText "/srv/vendor", "crates-io", "vendored-sources", true, true⟩

theorem registry_switched :
    ∃ table plain, AliasTable.ofSection switchedSection [vendoredAlias (some registry)] = .ok table ∧
      AliasTable.ofSection switchedSection [vendoredAlias none] = .ok plain ∧
      resolve ⟨table, 3, by decide⟩ "both" =
        (outlineRoot ⟨plain, 3, by decide⟩ "both").map (fill registry.arguments) := by
  have accepted : ∃ table,
      AliasTable.ofSection switchedSection [vendoredAlias (some registry)] = .ok table :=
    exists_of_isOk (by decide +kernel)
  obtain ⟨table, made⟩ := accepted
  obtain ⟨plain, plainMade, switches, -⟩ := resolve_with_switch made
  obtain ⟨switched, again, filled⟩ := switches (some registry)
  cases made.symm.trans again
  exact ⟨table, plain, made, plainMade, filled 3 (by decide) "both"⟩

end Resolver
end BuildRules
