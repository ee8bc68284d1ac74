namespace BuildRules.Execution

inductive Step where
  | start
  | terminate
  /-- Wait so many seconds, or without a limit. -/
  | wait (seconds : Option Nat)
  | kill
deriving DecidableEq

def graceSeconds : Nat := 10

/-- What is done to an interrupted process. A stubborn one outlasts the grace period. -/
def cancellation (stubborn : Bool) : List Step :=
  [.start, .terminate, .wait (some graceSeconds)] ++
    if stubborn then [.kill, .wait none] else []

end BuildRules.Execution
