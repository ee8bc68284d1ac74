import BuildRules.Config.Error
import BuildRules.Proofs.Value.Written

/-! Errors that are raised with their messages. Without a message there is the fault of a value
that has no text. -/
namespace BuildRules

theorem Number.display_eq_error {value : Int} {fault : Value.Fault}
    (failed : Number.display value = .error fault) :
    fault = .integerTooLong ∧ Number.isShort value = false := by
  rw [display] at failed
  split at failed
  next => cases failed
  next long => exact ⟨(Except.error.inj failed).symm, by simpa using long⟩

theorem ConfigError.message_eq_error {error : ConfigError} {fault : Value.Fault}
    (failed : error.message = .error fault) : fault = .integerTooLong := by
  -- a message shows at most an ordinal and a value, each of them in a line of its own
  cases error <;> first
    | cases failed
    | (rw [message, bind_eq_error] at failed
       rcases failed with shown | ⟨_, -, rest⟩
       · first
         | exact (Number.display_eq_error shown).1
         | exact (Value.quoted_eq_error shown).1
         | exact (Scalar.quoted_eq_error shown).1
         | exact (Scalar.quoted_eq_error (Scalar.display_eq_error shown)).1
       · first
         | cases rest
         | (rcases bind_eq_error.mp rest with shown | ⟨_, -, rest⟩
            · exact (Value.quoted_eq_error shown).1
            · cases rest))

def ConfigError.shown : ConfigError → List Value
  | .mergeConflict key .. | .triggerUnknown key => [.scalar key]
  | .requirementMalformed raw | .aliasToken _ raw | .lintMalformed raw | .lintNameless raw
  | .lintSeverity _ raw | .doctorCommand raw => [raw]
  | .stageNotMap ordinal raw => [.int ordinal, raw]
  | .stageNameless ordinal | .stageOrdinalDuplicate ordinal _ => [.int ordinal]
  | _ => []

theorem ConfigError.exists_message {error : ConfigError}
    (written : ∀ value ∈ error.shown, value.Written) : ∃ text, error.message = .ok text := by
  cases error with
  | mergeConflict key base layer =>
    obtain ⟨text, display⟩ := (written _ List.mem_cons_self).leaf.exists_display
    exact ⟨_, by rw [message, display]; rfl⟩
  | triggerUnknown event =>
    obtain ⟨text, quoted⟩ := (written _ List.mem_cons_self).leaf.exists_quoted
    exact ⟨_, by rw [message, quoted]; rfl⟩
  | stageNotMap ordinal raw =>
    have short := (written (.int ordinal) List.mem_cons_self).leaf
    obtain ⟨text, quoted⟩ := (written raw (List.mem_cons_of_mem _ List.mem_cons_self)).exists_quoted
    exact ⟨_, by rw [message, Number.display_eq_ok short, quoted]; rfl⟩
  | stageNameless ordinal | stageOrdinalDuplicate ordinal name =>
    have short := (written (.int ordinal) List.mem_cons_self).leaf
    exact ⟨_, by rw [message, Number.display_eq_ok short]; rfl⟩
  | requirementMalformed raw | aliasToken name raw | lintMalformed raw | lintNameless raw
  | lintSeverity name raw | doctorCommand raw =>
    obtain ⟨text, quoted⟩ := (written raw List.mem_cons_self).exists_quoted
    exact ⟨_, by rw [message, quoted]; rfl⟩
  | _ => exact ⟨_, rfl⟩

namespace PolicyError

theorem raised_of_message {error : ConfigError} {text : String}
    (message : error.message = .ok text) : raised error = .config error := by rw [raised, message]

theorem raised_cases (error : ConfigError) :
    (raised error = .config error ∧ ∃ text, error.message = .ok text) ∨
      (raised error = .shape .integerTooLong ∧ error.message = .error .integerTooLong) := by
  cases message : error.message with
  | ok text => exact .inl ⟨raised_of_message message, text, rfl⟩
  | error fault =>
    obtain rfl := ConfigError.message_eq_error message
    exact .inr ⟨by rw [raised, message], rfl⟩

/-- Errors of one class. -/
inductive Alike : PolicyError → PolicyError → Prop where
  | config {error other : ConfigError} (category : error.category = other.category) :
      Alike (.config error) (.config other)
  | shape (fault : Value.Fault) : Alike (.shape fault) (.shape fault)
  | system (fault : FileTree.Fault) : Alike (.system fault) (.system fault)

theorem Alike.refl : (error : PolicyError) → Alike error error
  | .config _ => .config rfl
  | .shape fault => .shape fault
  | .system fault => .system fault

/-- A fault of the category, raised with its message. -/
inductive Of (category : ConfigError.Category) : PolicyError → Prop where
  | config {error : ConfigError} (same : error.category = category) : Of category (.config error)

theorem Of.alike {category : ConfigError.Category} {error other : PolicyError}
    (first : error.Of category) (second : other.Of category) : Alike error other := by
  obtain ⟨same⟩ := first
  obtain ⟨also⟩ := second
  exact .config (same.trans also.symm)

theorem of_raised {category : ConfigError.Category} {error : ConfigError}
    (same : error.category = category) (written : ∀ value ∈ error.shown, value.Written) :
    (raised error).Of category := by
  obtain ⟨text, message⟩ := error.exists_message written
  rw [raised_of_message message]
  exact .config same

end PolicyError
end BuildRules
