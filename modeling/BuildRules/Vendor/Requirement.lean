import BuildRules.Config.Error
import BuildRules.Text.Blank
import BuildRules.Text.Digit

namespace BuildRules

structure Requirement where
  name : String
  version : Option String
deriving DecidableEq

namespace Requirement

/-- `name` or `name@version`, split at the first at sign. -/
private def ofText? (text : String) : Option Requirement :=
  let chars := Text.trimChars text.toList
  let name := chars.takeWhile (· != '@')
  let version := (chars.dropWhile (· != '@')).drop 1
  if name.isEmpty then none
  else some ⟨String.ofList name,
    if version.isEmpty then none else some (String.ofList version)⟩

def parse (raw : Value) : Except PolicyError Requirement :=
  match raw with
  | .text text =>
    match ofText? text with
    | some requirement => .ok requirement
    | none => .error (.raised (.requirementMalformed raw))
  | .map entries =>
    match Record.get? entries "name" with
    | some (.text name) =>
      if Text.isBlankText name then .error (.raised (.requirementMalformed raw))
      else
        match Record.get? entries "version" with
        | none | some .null => .ok ⟨Text.trim name, none⟩
        | some version => do
          .ok ⟨Text.trim name, some (← version.display.mapError PolicyError.shape)⟩
    | _ => .error (.raised (.requirementMalformed raw))
  | _ => .error (.raised (.requirementMalformed raw))

/-- The bare name, the name with the version asked for, or, where none is, the name with
anything that begins with a digit. -/
def isMetBy (requirement : Requirement) (directory : String) : Bool :=
  if directory == requirement.name then true
  else
    let stem := requirement.name.toList ++ ['-']
    let chars := directory.toList
    if stem.isPrefixOf chars then
      let rest := chars.drop stem.length
      match requirement.version with
      | some version => rest == version.toList
      | none =>
        match rest with
        | c :: _ => isDigitChar c
        | [] => false
    else false

def display (requirement : Requirement) : String :=
  match requirement.version with
  | some version =>
    if version == "" then requirement.name else requirement.name ++ "@" ++ version
  | none => requirement.name

end Requirement
end BuildRules
