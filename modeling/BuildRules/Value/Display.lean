import BuildRules.Number.Decimal
import BuildRules.Number.Length
import BuildRules.Text.Quoted
import BuildRules.Value.Sequence

namespace BuildRules

/-- Numbers are positional from `1e-04` up to `1e+16` and keep a fraction. -/
def NumberForm.display : NumberForm := ⟨16, -4, 2, "nan", "inf"⟩

def Number.display (value : Int) : Except Value.Fault String :=
  if isShort value then .ok (toString value) else .error .integerTooLong

namespace Scalar

/-- The form inside a list or map: texts are quoted. -/
def quoted : Scalar → Except Value.Fault String
  | .null => .ok "None"
  | .bool value => .ok (if value then "True" else "False")
  | .int value => Number.display value
  | .float value => .ok (value.write .display)
  | .text value => .ok (Text.quoted value)
  | .foreign object => .ok object.quoted

/-- The form on its own: a text is itself. -/
def display : Scalar → Except Value.Fault String
  | .text value => .ok value
  | .foreign object => .ok object.display
  | leaf => leaf.quoted

end Scalar

namespace Value

mutual

def quoted : Value → Except Fault String
  | .scalar leaf => leaf.quoted
  | .list items => do .ok ("[" ++ ", ".intercalate (← quotedItems items) ++ "]")
  | .map entries => do .ok ("\x7b" ++ ", ".intercalate (← quotedEntries entries) ++ "\x7d")

def quotedItems : List Value → Except Fault (List String)
  | [] => .ok []
  | item :: rest => do
    let first ← item.quoted
    .ok (first :: (← quotedItems rest))

def quotedEntries : List (Scalar × Value) → Except Fault (List String)
  | [] => .ok []
  | (key, value) :: rest => do
    let first := (← key.quoted) ++ ": " ++ (← value.quoted)
    .ok (first :: (← quotedEntries rest))

end

def display : Value → Except Fault String
  | .scalar leaf => leaf.display
  | value => value.quoted

end Value
end BuildRules
