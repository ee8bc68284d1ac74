import BuildRules.Config.Error
import BuildRules.Text.Blank

namespace BuildRules

inductive Token where
  /-- Stands for an alias of this name if there is one, else for itself. -/
  | word (text : String)
  /-- Never expanded. -/
  | literal (text : String)
  /-- Stands for an alias that must exist. -/
  | reference (name : String)
deriving DecidableEq

def Token.text : Token → String
  | .word text | .literal text | .reference text => text

structure Alias where
  name : String
  tokens : List Token
deriving DecidableEq

namespace Alias

/-- The alias that switches an invocation to the vendored sources. -/
def vendoredName : String := "__vendored"

/-- A backslash before a token makes it literal; a backslash alone is a word. -/
def tokenOfText (text : String) : Token :=
  match text.toList with
  | '\\' :: c :: rest => .literal (String.ofList (c :: rest))
  | _ => .word text

def token (name : String) (raw : Value) : Except PolicyError Token :=
  match raw with
  | .text text => .ok (tokenOfText text)
  | .map [(.text "literal", .text text)] => .ok (.literal text)
  | .map [(.text "alias", .text target)] =>
    if Text.isBlankText target then .error (.raised (.aliasToken name raw)) else .ok (.reference target)
  | _ => .error (.raised (.aliasToken name raw))

/-- A text is split into words at white space; every item of a list is one token. -/
def parse (name definition : Value) : Except PolicyError Alias :=
  match name with
  | .text name =>
    if Text.isBlankText name then .error (.raised .aliasNameBlank)
    else match definition with
      | .text text => do .ok ⟨name, ← ((Text.words text).map Value.text).mapM (token name)⟩
      | .list items => do .ok ⟨name, ← items.mapM (token name)⟩
      | _ => .error (.raised (.aliasDefinition name definition.kind))
  | _ => .error (.raised .aliasNameBlank)

end Alias
end BuildRules
