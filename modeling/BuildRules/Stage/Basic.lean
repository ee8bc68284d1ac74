import BuildRules.Config.Error
import BuildRules.Text.Blank

namespace BuildRules

structure Stage where
  name : String
  ordinal : Int
  /-- An alias to expand; without one the arguments are used as they are. -/
  alias_ : Option String
  arguments : List String
deriving DecidableEq

namespace Stage

def parseAlias (name : String) : Value → Except PolicyError (Option String)
  | .null => .ok none
  | .text text =>
    if Text.isBlankText text then .error (.raised (.stageAlias name)) else .ok (some text)
  | _ => .error (.raised (.stageAlias name))

def parseArguments (name : String) : Value → Except PolicyError (List String)
  | .null => .ok []
  | .text text => .ok (Text.words text)
  | .list items =>
    match Value.asTexts? items with
    | some texts => .ok texts
    | none => .error (.raised (.stageArguments name))
  | _ => .error (.raised (.stageArguments name))

/-- A declared stage; without an ordinal of its own it has the place of its declaration. -/
def parse (raw : Value) (place : Int) : Except PolicyError Stage :=
  match raw with
  | .map entries =>
    match Record.get? entries "name" with
    | some (.text name) =>
      if Text.isBlankText name then .error (.raised (.stageNameless place))
      else do
        let aliasValue := (Record.get? entries "alias").getD .null
        let argumentsValue := (Record.get? entries "args").getD .null
        if aliasValue.isNull == argumentsValue.isNull then throw (.raised (.stageCommand name))
        let alias_ ← parseAlias name aliasValue
        let arguments ← parseArguments name argumentsValue
        match Record.get? entries "ordinal" with
        | none => .ok ⟨Text.trim name, place, alias_, arguments⟩
        | some (.int ordinal) => .ok ⟨Text.trim name, ordinal, alias_, arguments⟩
        | some _ => .error (.raised (.stageOrdinal name))
    | _ => .error (.raised (.stageNameless place))
  | _ => .error (.raised (.stageNotMap place raw))

end Stage
end BuildRules
