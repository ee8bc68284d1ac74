import BuildRules.Proofs.Stage.Plan
import BuildRules.Proofs.Text.Blank

namespace BuildRules.Stage

/-- A name without white space around it, and one command: an alias and no arguments, or no
alias. -/
structure Formed (stage : Stage) : Prop where
  named : Text.Stripped stage.name
  command : stage.alias_ = none ∨ stage.arguments = []

variable {raw : Value} {place : Int} {stage : Stage}

theorem parseAlias_eq_none {name : String} {alias_ : Option String} (absent : raw.isNull = true)
    (read : parseAlias name raw = .ok alias_) : alias_ = none := by
  unfold Value.isNull at absent
  split at absent
  next => cases read; rfl
  next => cases absent

theorem parseArguments_eq_nil {name : String} {arguments : List String} (absent : raw.isNull = true)
    (read : parseArguments name raw = .ok arguments) : arguments = [] := by
  unfold Value.isNull at absent
  split at absent
  next => cases read; rfl
  next => cases absent

theorem formed_of_parse (read : parse raw place = .ok stage) : Formed stage := by
  unfold parse at read
  split at read
  next entries =>
    split at read
    next name found =>
      split at read
      next => cases read
      next visible =>
        dsimp only at read
        split at read
        next => cases read
        next one =>
          obtain ⟨alias_, aliasRead, read⟩ := bind_eq_ok.mp read
          obtain ⟨arguments, argumentsRead, read⟩ := bind_eq_ok.mp read
          have named : Text.Stripped (Text.trim name) :=
            Text.stripped_trim (by simpa using visible)
          have command : alias_ = none ∨ arguments = [] := by
            cases absent : ((Record.get? entries "alias").getD .null).isNull with
            | true => exact .inl (parseAlias_eq_none absent aliasRead)
            | false =>
              refine .inr (parseArguments_eq_nil ?_ argumentsRead)
              simpa [absent] using one
          split at read
          next => cases read; exact ⟨named, command⟩
          next => cases read; exact ⟨named, command⟩
          next => cases read
    next => cases read
  next => cases read

end BuildRules.Stage
