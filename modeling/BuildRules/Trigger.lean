import BuildRules.Config.Error

namespace BuildRules

structure TriggerPolicy where
  branches : Entries String (List String)

namespace TriggerPolicy

def isEvent (name : String) : Bool := name == "push" || name == "pull_request"

def parseEntries (table : Entries String (List String)) :
    List (Scalar × Value) → Except PolicyError (Entries String (List String))
  | [] => .ok table
  | (.text event, names) :: rest =>
    if isEvent event then
      match names with
      | .list items =>
        match Value.asTexts? items with
        | some texts => parseEntries (Entries.insert table event texts) rest
        | none => .error (.raised (.triggerBranches event))
      | _ => .error (.raised (.triggerBranches event))
    else .error (.raised (.triggerUnknown (.text event)))
  | (event, _) :: _ => .error (.raised (.triggerUnknown event))

def parse (raw : Value) : Except PolicyError TriggerPolicy :=
  match raw with
  | .null => .ok ⟨[]⟩
  | .map entries => (parseEntries [] entries).map .mk
  | _ => .error (.raised .triggersNotMap)

def fires (policy : TriggerPolicy) (event branch : String) : Bool :=
  match Entries.find? policy.branches event with
  | some names => names.contains branch
  | none => false

end TriggerPolicy
end BuildRules
