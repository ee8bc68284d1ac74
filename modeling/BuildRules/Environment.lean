import BuildRules.Config.Error
import BuildRules.Text.Blank

namespace BuildRules

structure Environment where
  backtrace : Option String
  /-- Undecided, off or on. -/
  forceColor : Option Bool
deriving DecidableEq

namespace Environment

def empty : Environment := ⟨none, none⟩

def backtraceVariable : String := "RUST_BACKTRACE"
def colorVariable : String := "CARGO_TERM_COLOR"
def flagsVariable : String := "RUSTFLAGS"

def parse (raw : Value) : Except PolicyError Environment :=
  match raw with
  | .null => .ok empty
  | .map entries => do
    let backtrace ←
      match Record.get? entries "backtrace" with
      | none | some .null => pure none
      | some value => do pure (some (← value.display.mapError PolicyError.shape))
    let forceColor :=
      match Record.get? entries "force_color" with
      | none | some .null => none
      | some value => some value.truthy
    .ok ⟨backtrace, forceColor⟩
  | _ => .error (.raised .environmentNotMap)

/-- Settings of the process that the program runs in. Empty ones decide nothing, and any
color but `always` turns the forcing off. -/
def ofVariables (vars : Entries String String) : Environment :=
  let nonEmpty (name : String) : Option String :=
    (Entries.find? vars name).filter (· != "")
  ⟨nonEmpty backtraceVariable,
    (nonEmpty colorVariable).map fun color => Text.lowerAscii (Text.trim color) == "always"⟩

/-- What the layer decides wins. -/
def overlay (base layer : Environment) : Environment :=
  ⟨layer.backtrace <|> base.backtrace, layer.forceColor <|> base.forceColor⟩

/-- The variables that the settings stand for. -/
def vars (environment : Environment) : Entries String String :=
  (match environment.backtrace with
    | some value => [(backtraceVariable, value)]
    | none => []) ++
  (if environment.forceColor == some true then [(colorVariable, "always")] else [])

end Environment
end BuildRules
