import BuildRules.Value.Basic
import BuildRules.Yaml.Token

/-! The tree of a YAML document, before its plain scalars get a type. An alias stands for
the node that its anchor named, so nothing of anchors is left in the tree. -/
namespace BuildRules.Yaml

inductive Node where
  /-- A scalar without quotes may turn out to be no text. -/
  | scalar (text : String) (plain : Bool)
  | sequence (items : List Node)
  | mapping (entries : List (Node × Node))
deriving Inhabited

namespace Node

/-- What stands where a document leaves a node out. -/
def empty : Node := .scalar "" true

private structure Reader where
  rest : List Token
  /-- Nodes that are complete, by their anchor. -/
  anchors : Entries String Node

private abbrev Reading := StateT Reader (Except Error)

private def ahead : Reading (Option Token) := return (← get).rest.head?

private def advance : Reading Unit := modify fun reader => { reader with rest := reader.rest.tail }

private def isAhead (tokens : List Token) : Reading Bool := do
  match ← ahead with
  | none => return false
  | some token => return tokens.contains token

/-- Pass over a token, if it is the next one. -/
private def take (token : Token) : Reading Bool := do
  let found ← isAhead [token]
  if found then advance
  return found

private def close (token : Token) : Reading Unit := do
  if !(← take token) then throw .collectionUnclosed

private def declared (name : String) : Reading Node := do
  match (← get).anchors.find? name with
  | some node => return node
  | none => throw (.anchorUndeclared name)

private def declare (name : String) (node : Node) : Reading Unit := do
  let reader ← get
  if reader.anchors.has name then throw (.anchorRepeated name)
  set { reader with anchors := reader.anchors.insert name node }

/-- Where nodes may stand: in brackets, in a block, or as a part of a block mapping, where
the items of a sequence need no indentation of their own. -/
private inductive Place where
  | flow
  | block
  | part
deriving DecidableEq

mutual

private def node (place : Place) : Nat → Reading Node
  | 0 => throw .contentExpected
  | fuel + 1 => do
    match ← ahead with
    | some (.alias_ name) =>
      advance
      declared name
    | some (.anchor name) =>
      advance
      let node ← content place true fuel
      declare name node
      return node
    | _ => content place false fuel

/-- A node after its anchor. With an anchor the node itself may be left out. -/
private def content (place : Place) (anchored : Bool) : Nat → Reading Node
  | 0 => throw .contentExpected
  | fuel + 1 => do
    match place, ← ahead with
    | _, some (.scalar text plain) =>
      advance
      return .scalar text plain
    | _, some .flowSequence =>
      advance
      return .sequence (← flowItems true fuel)
    | _, some .flowMapping =>
      advance
      return .mapping (← flowEntries true fuel)
    | .part, some .blockEntry => return .sequence (← partItems fuel)
    | .block, some .blockSequence | .part, some .blockSequence =>
      advance
      return .sequence (← blockItems fuel)
    | .block, some .blockMapping | .part, some .blockMapping =>
      advance
      return .mapping (← blockEntries fuel)
    | _, _ => if anchored then return empty else throw .contentExpected

/-- A node, or the empty one where one of these tokens follows. -/
private def nodeUnless (stops : List Token) (place : Place) : Nat → Reading Node
  | 0 => throw .contentExpected
  | fuel + 1 => do if ← isAhead stops then return empty else node place fuel

/-- The node after a token, or the empty one where the token is missing. -/
private def nodeAfter (token : Token) (stops : List Token) (place : Place) : Nat → Reading Node
  | 0 => throw .contentExpected
  | fuel + 1 => do if ← take token then nodeUnless stops place fuel else return empty

private def blockItems : Nat → Reading (List Node)
  | 0 => throw .collectionUnclosed
  | fuel + 1 => do
    if ← take .blockEntry then
      let item ← nodeUnless [.blockEntry, .blockEnd] .block fuel
      return item :: (← blockItems fuel)
    else
      close .blockEnd
      return []

private def partItems : Nat → Reading (List Node)
  | 0 => throw .collectionUnclosed
  | fuel + 1 => do
    if ← take .blockEntry then
      let item ← nodeUnless [.blockEntry, .key, .value, .blockEnd] .block fuel
      return item :: (← partItems fuel)
    else return []

private def blockEntries : Nat → Reading (List (Node × Node))
  | 0 => throw .collectionUnclosed
  | fuel + 1 => do
    if ← take .key then
      let key ← nodeUnless [.key, .value, .blockEnd] .part fuel
      let value ← nodeAfter .value [.key, .value, .blockEnd] .part fuel
      return (key, value) :: (← blockEntries fuel)
    else
      close .blockEnd
      return []

/-- Items up to the closing bracket. A comma may stand after the last one; an item with a
key is a mapping of one entry. -/
private def flowItems (first : Bool) : Nat → Reading (List Node)
  | 0 => throw .collectionUnclosed
  | fuel + 1 => do
    if ← take .flowSequenceEnd then return []
    if !first then close .flowEntry
    if ← take .key then
      let key ← nodeUnless [.value, .flowEntry, .flowSequenceEnd] .flow fuel
      let value ← nodeAfter .value [.flowEntry, .flowSequenceEnd] .flow fuel
      return .mapping [(key, value)] :: (← flowItems false fuel)
    else if ← take .flowSequenceEnd then return []
    else
      let item ← node .flow fuel
      return item :: (← flowItems false fuel)

/-- Entries up to the closing brace. A node without a colon is a key of the empty node. -/
private def flowEntries (first : Bool) : Nat → Reading (List (Node × Node))
  | 0 => throw .collectionUnclosed
  | fuel + 1 => do
    if ← take .flowMappingEnd then return []
    if !first then close .flowEntry
    if ← take .key then
      let key ← nodeUnless [.value, .flowEntry, .flowMappingEnd] .flow fuel
      let value ← nodeAfter .value [.flowEntry, .flowMappingEnd] .flow fuel
      return (key, value) :: (← flowEntries false fuel)
    else if ← take .flowMappingEnd then return []
    else
      let key ← node .flow fuel
      return (key, empty) :: (← flowEntries false fuel)

end

/-- The only document of a text. It may begin and end with its marks. -/
private def document (fuel : Nat) : Reading Node := do
  let root ←
    if ← take .documentStart then
      if (← get).rest.isEmpty then pure empty
      else nodeUnless [.documentStart, .documentEnd] .block fuel
    else node .block fuel
  modify fun reader => { reader with rest := reader.rest.dropWhile (· == .documentEnd) }
  if !(← get).rest.isEmpty then throw .severalDocuments
  return root

/-- The tree of the tokens of a text; a text without any is the empty node. Each token
opens at most four levels of reading, which bounds its depth. -/
def ofTokens? (tokens : List Token) : Except Error Node :=
  if tokens.isEmpty then .ok empty
  else ((document (4 * tokens.length + 8)).run ⟨tokens, []⟩).map Prod.fst

end Node
end BuildRules.Yaml
