import BuildRules.Config.Error

/-! A layer laid over a base. Maps are merged key by key, a list replaces whatever is
there, and any other value replaces one of its own type only. -/
namespace BuildRules.Config

mutual

/-- The value under a key that both sides have. -/
def overlayValue (key : Scalar) (base : Value) : Value → Except PolicyError Value
  | .map layer =>
    match base with
    | .map entries => do .ok (.map (← overlayEntries entries layer))
    | _ => .error (.raised (.mergeConflict key base.kind .map))
  | .list items => .ok (.list items)
  | .scalar leaf =>
    if base.kind = leaf.kind then .ok (.scalar leaf)
    else .error (.raised (.mergeConflict key base.kind leaf.kind))

/-- Entries of the layer, in order, into the base. -/
def overlayEntries (base : Record) : List (Scalar × Value) → Except PolicyError Record
  | [] => .ok base
  | (key, value) :: rest =>
    match Entries.find? base key with
    | none => overlayEntries (Entries.insert base key value) rest
    | some old => do
      let merged ← overlayValue key old value
      overlayEntries (Entries.insert base key merged) rest

end

def overlayRecord (base layer : Record) : Except PolicyError Record := overlayEntries base layer

/-- Both sides must be maps. -/
def overlay (base layer : Value) : Except PolicyError Value :=
  match base, layer with
  | .map entries, .map additions => (overlayRecord entries additions).map .map
  | _, _ => .error (.raised (.mergeOfNonMaps base.kind layer.kind))

end BuildRules.Config
