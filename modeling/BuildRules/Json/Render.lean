import BuildRules.Text.Quoted
import BuildRules.Value.Display
import BuildRules.Value.Sorted

/-! JSON documents and their text. A value becomes a document whose members are sorted by
key, so values that differ in the order of entries have one text. -/
namespace BuildRules

inductive Json where
  | null
  | bool (value : Bool)
  /-- An integer of a document has a text. -/
  | int (value : Int) (short : Number.isShort value = true)
  | float (value : Binary64)
  | text (value : String)
  | array (items : List Json)
  | object (members : List (String × Json))
deriving Inhabited

/-- Separators of a document, and the indentation of its levels where it has lines. -/
structure Json.Layout where
  itemSeparator : String
  keySeparator : String
  indent : Option Nat

/-- Numbers are positional from `1e-04` up to `1e+16`; the three that are not finite have
names. -/
def NumberForm.json : NumberForm := ⟨16, -4, 2, "NaN", "Infinity"⟩

namespace Json

def Layout.compact : Layout := ⟨",", ":", none⟩
def Layout.spaced : Layout := ⟨", ", ": ", none⟩
def Layout.indented : Layout := ⟨",", ": ", some 2⟩

/-- Quotes, backslashes and controls are escaped; all other characters stand for
themselves. -/
def escapeChar (c : Char) : List Char :=
  if c == '\x22' || c == '\\' then ['\\', c]
  else if c == '\n' then ['\\', 'n']
  else if c == '\r' then ['\\', 'r']
  else if c == '\t' then ['\\', 't']
  else if c == '\x0c' then ['\\', 'f']
  else if c == '\x08' then ['\\', 'b']
  else if c.toNat < 32 then '\\' :: 'u' :: Text.hexDigits 4 c.toNat
  else [c]

def quotedChars (text : List Char) : List Char :=
  '\x22' :: text.flatMap escapeChar ++ ['\x22']

def quoted (text : String) : String := String.ofList (quotedChars text.toList)

/-- What stands between two items, and before the first and after the last. -/
def gap (layout : Layout) (depth : Nat) : String :=
  match layout.indent with
  | none => ""
  | some width => String.ofList ('\n' :: List.replicate (width * depth) ' ')

def enclosed (layout : Layout) (depth : Nat) (left right : String)
    (items : List String) : String :=
  if items.isEmpty then left ++ right
  else
    let between := layout.itemSeparator ++ gap layout (depth + 1)
    left ++ gap layout (depth + 1) ++ between.intercalate items ++ gap layout depth ++ right

mutual

def renderAt (layout : Layout) (depth : Nat) : Json → String
  | .null => "null"
  | .bool value => if value then "true" else "false"
  | .int value _ => toString value
  | .float value => value.write .json
  | .text value => quoted value
  | .array items => enclosed layout depth "[" "]" (renderItems layout (depth + 1) items)
  | .object members =>
    enclosed layout depth "\x7b" "\x7d" (renderMembers layout (depth + 1) members)

def renderItems (layout : Layout) (depth : Nat) : List Json → List String
  | [] => []
  | item :: rest => renderAt layout depth item :: renderItems layout depth rest

def renderMembers (layout : Layout) (depth : Nat) : List (String × Json) → List String
  | [] => []
  | (key, value) :: rest =>
    (quoted key ++ layout.keySeparator ++ renderAt layout depth value) ::
      renderMembers layout depth rest

end

def render (layout : Layout) (document : Json) : String := renderAt layout 0 document

/-- The member name of a key. -/
def keyText : Scalar → Except Value.Fault String
  | .null => .ok "null"
  | .bool value => .ok (if value then "true" else "false")
  | .int value => Number.display value
  | .float value => .ok (value.write .json)
  | .text value => .ok value
  | .foreign other => .error (.notJson (.foreign other.typeName))

/-- Order of keys that can be compared. -/
def keyLe (left right : Scalar) : Bool :=
  match right.before left with
  | .ok strictly => !strictly
  | .error _ => true

/-- The first neighbour that a key cannot be compared with. -/
def keyFault : List Scalar → Option Value.Fault
  | first :: second :: rest =>
    match first.before second with
    | .error fault => some fault
    | .ok _ => keyFault (second :: rest)
  | _ => none

def ofLeaf : Scalar → Except Value.Fault Json
  | .null => .ok .null
  | .bool value => .ok (.bool value)
  | .int value =>
    if short : Number.isShort value = true then .ok (.int value short) else .error .integerTooLong
  | .float value => .ok (.float value)
  | .text value => .ok (.text value)
  | .foreign other => .error (.notJson (.foreign other.typeName))

/-- The name of a member comes before its value. -/
def ofMember (member : Scalar × Except Value.Fault Json) : Except Value.Fault (String × Json) := do
  let name ← keyText member.1
  .ok (name, ← member.2)

mutual

/-- The document of a value. Keys of one map must have an order, and members come in it. -/
def ofValue : Value → Except Value.Fault Json
  | .scalar leaf => ofLeaf leaf
  | .list items => do .ok (.array (← ofItems items))
  | .map entries =>
    match keyFault (entries.map Prod.fst) with
    | some fault => .error fault
    | none => do
      let sorted := Sorted.sort (fun left right => keyLe left.1 right.1) (ofEntries entries)
      .ok (.object (← sorted.mapM ofMember))

def ofItems : List Value → Except Value.Fault (List Json)
  | [] => .ok []
  | item :: rest => do
    let first ← ofValue item
    .ok (first :: (← ofItems rest))

def ofEntries : List (Scalar × Value) → List (Scalar × Except Value.Fault Json)
  | [] => []
  | (key, value) :: rest => (key, ofValue value) :: ofEntries rest

end

/-- Text of a value in a layout, members sorted by key. -/
def write (layout : Layout) (value : Value) : Except Value.Fault String :=
  (ofValue value).map (render layout)

end Json
end BuildRules
