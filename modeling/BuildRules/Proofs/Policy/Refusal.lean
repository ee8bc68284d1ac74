import BuildRules.Proofs.CommandLine.Refusal
import BuildRules.Proofs.Json.Document
import BuildRules.Proofs.Policy.Reasons

/-! How a configuration is refused: with a reason that ends a call with its own exit code, unless
something in it has no text, keys of one map have no order, or the system keeps the vendored
sources from being looked at. -/
namespace BuildRules.Policy

open Value CommandLine

variable {check : VendorCheck} {config : Record}

/-- Nothing in a configuration is without a text, and it has a canonical one. -/
structure Documented (config : Record) : Prop where
  legible : Legible config
  ordered : Ordered (.map config)

theorem canonicalText_cases (config : Record) :
    (∃ text, Config.canonicalText (.map config) = .ok text ∧ Ordered (.map config) ∧
      Written (.map config)) ∨
    ∃ fault, Config.canonicalText (.map config) = .error fault ∧ ¬ Documented config := by
  rw [Config.canonicalText, Json.write]
  cases read : Json.ofValue (.map config) with
  | ok document => exact .inl ⟨_, rfl, Json.exists_document_iff.mp ⟨document, read⟩⟩
  | error fault =>
    refine .inr ⟨fault, rfl, fun documented => ?_⟩
    obtain ⟨document, made⟩ :=
      Json.exists_document_iff.mpr ⟨documented.ordered, documented.legible.written⟩
    rw [read] at made
    cases made

inductive Settled (check : VendorCheck) (config : Record) : Prop
  | loaded {policy : Policy} (loaded : load check (.map config) = .ok policy)
      (ordered : Ordered (.map config)) (written : Written (.map config))
  | refused {reason : ConfigError} (refused : load check (.map config) = .error (.config reason))
  | undocumented {fault : Value.Fault} (raised : load check (.map config) = .error (.shape fault))
      (undocumented : ¬ Documented config)
  | blocked {fault : FileTree.Fault} (raised : load check (.map config) = .error (.system fault))
      (blocked : Blocked check config fault)

theorem settled (check : VendorCheck) (config : Record) : Settled check config := by
  cases read : loadSections check config "" with
  | error error =>
    have failed := load_eq_error read
    cases settles_loadSections check config "" error read with
    | reason reason => exact .refused failed
    | fault fault illegible =>
      exact .undocumented failed fun documented => illegible documented.legible
    | system blocked => exact .blocked failed blocked
  | ok sections =>
    rcases canonicalText_cases config with
      ⟨text, written, ordered, legible⟩ | ⟨fault, unwritten, undocumented⟩
    · exact .loaded (load_eq_ok read written) ordered legible
    · have failed : load check (.map config) = .error (.shape fault) := by
        simp only [load, read, unwritten]
      exact .undocumented failed undocumented

/-- A configuration has a policy or is refused with a reason, and a call that it is refused to ends
with exit code 2 before anything is started. Anything else is raised only where something in it has
no text or keys of one map have no order, or where the system raises it. -/
theorem load_settles (check : VendorCheck) (config : Record) :
    Settled check config ∧
    ∀ setting line arguments, Arguments.parse line = .ok arguments →
      Config.load setting.yaml setting.files arguments.config arguments.local_ =
        .ok (.map config) →
      ∀ reason, load (setting.checkOf arguments.command) (.map config) = .error (.config reason) →
        (call setting line).1 = .finished 2 ∧ (call setting line).2.commands = [] := by
  refine ⟨settled check config, ?_⟩
  intro setting line arguments parsed read reason refused
  obtain ⟨code, commands, -⟩ := call_of_refused parsed (.invalid read refused)
  exact ⟨code, commands⟩

/-- A workspace whose policy names no tool. -/
def toolless : Setting :=
  { building with yaml := fun _ => .ok (.ofFields [("toolchain", .int 3)]) }

theorem toolless_settles : Settled .declared (Record.ofFields [("toolchain", .int 3)]) ∧
    (call toolless ["--config", "policy.yaml", "lints"]).1 = .finished 2 ∧
      (call toolless ["--config", "policy.yaml", "lints"]).2.commands = [] := by
  have parsed : Arguments.parse ["--config", "policy.yaml", "lints"] =
      .ok ⟨some "policy.yaml", none, false, .lints⟩ := by decide +kernel
  obtain ⟨settled, refuses⟩ := load_settles .declared (Record.ofFields [("toolchain", .int 3)])
  exact ⟨settled, refuses toolless _ _ parsed rfl .toolchainBlank rfl⟩

/-- Keys of two types in a section that nothing reads. -/
def mixedKeys : Value :=
  .ofFields [("metadata", .map [(.int 1, .text "first"), (.text "two", .text "second")])]

theorem mixedKeys_fault : load .declared mixedKeys = .error (.shape (.unordered .int .text)) := by
  rfl

end BuildRules.Policy
