import BuildRules.Yaml.Node
import BuildRules.Yaml.Scalar

/-! The value of a YAML document. Entries merged in come before the mapping's own, so an
entry of its own replaces them. -/
namespace BuildRules.Yaml
namespace Node

private def leaf (text : String) (plain : Bool) : Except Error Scalar := do
  if plain then
    match ← Plain.ofText text with
    | .leaf leaf => return leaf
    | .merge | .default => throw .indicatorAsValue
  else return .text text

/-- Only scalars can be keys. -/
private def key : Node → Except Error Scalar
  | .scalar "=" true => .ok (.text "=")
  | .scalar text plain => leaf text plain
  | .sequence _ | .mapping _ => .error .keyNotScalar

private def isMerge : Node → Bool
  | .scalar "<<" true => true
  | _ => false

private def recordOf : Value → Except Error Record
  | .map entries => .ok entries
  | _ => .error .mergeNotMap

/-- Entries that a merge takes over. Of a list of mappings the first wins, so it comes
last. -/
private def merged : Value → Except Error Record
  | .list items => return (← items.mapM recordOf).reverse.flatten
  | value => recordOf value

mutual

def toValue : Node → Except Error Value
  | .scalar text plain => return .scalar (← leaf text plain)
  | .sequence items => return .list (← itemValues items)
  | .mapping entries => do
    let (merges, own) ← entryValues entries
    return .map (Entries.ofList (merges ++ own))

private def itemValues : List Node → Except Error (List Value)
  | [] => return []
  | item :: rest => return (← item.toValue) :: (← itemValues rest)

/-- Merged entries and own entries. -/
private def entryValues : List (Node × Node) → Except Error (Record × Record)
  | [] => return ([], [])
  | (name, node) :: rest => do
    if isMerge name then
      let additions ← merged (← node.toValue)
      let (merges, own) ← entryValues rest
      return (additions ++ merges, own)
    else
      let key ← key name
      let value ← node.toValue
      let (merges, own) ← entryValues rest
      return (merges, (key, value) :: own)

end

end Node

/-- Read the only document of a text whose lines end in line feeds. -/
def read (text : String) : Except Error Value := do
  (← Node.ofTokens? (← tokens text.toList)).toValue

end BuildRules.Yaml
