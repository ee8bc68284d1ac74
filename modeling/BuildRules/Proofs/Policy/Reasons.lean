import BuildRules.Proofs.Policy.Verified
import BuildRules.Proofs.Trigger

/-! Readings of a configuration that can be written. Each gives a result or fails for a reason, but
for the system, which may keep the directory of the vendored sources from being looked at. -/
namespace BuildRules

/-- A reason, a fault that only what is not legible brings about, or one of the system. -/
inductive PolicyError.Reasoned (legible : Prop) (blocked : FileTree.Fault → Prop) :
    PolicyError → Prop where
  | reason (error : ConfigError) : Reasoned legible blocked (.config error)
  | fault (fault : Value.Fault) (illegible : ¬ legible) : Reasoned legible blocked (.shape fault)
  | system {fault : FileTree.Fault} (refused : blocked fault) :
    Reasoned legible blocked (.system fault)

/-- A reading that fails for nothing else, if it fails. -/
def Settles {α : Type} (legible : Prop) (blocked : FileTree.Fault → Prop)
    (reading : Except PolicyError α) : Prop :=
  ∀ error, reading = .error error → error.Reasoned legible blocked

section Readings

variable {legible : Prop} {blocked : FileTree.Fault → Prop}

namespace Settles

variable {α β : Type} {error : ConfigError}

theorem ok (result : α) : Settles legible blocked (.ok result) := nofun

theorem raised (written : legible → ∀ value ∈ error.shown, value.Written) :
    Settles legible blocked (.error (.raised error) : Except PolicyError α) := by
  rintro _ ⟨⟩
  rcases PolicyError.raised_cases error with ⟨named, -⟩ | ⟨unnamed, untold⟩
  · rw [named]
    exact .reason error
  · rw [unnamed]
    refine .fault _ fun given => ?_
    obtain ⟨text, told⟩ := error.exists_message (written given)
    rw [told] at untold
    cases untold

theorem silent (nothing : error.shown = []) :
    Settles legible blocked (.error (.raised error) : Except PolicyError α) :=
  raised fun _ => nothing ▸ List.forall_mem_nil _

theorem showing {raw : Value} (only : error.shown = [raw]) (written : legible → raw.Written) :
    Settles legible blocked (.error (.raised error) : Except PolicyError α) :=
  raised fun given => only ▸ List.forall_mem_singleton.mpr (written given)

theorem bind {reading : Except PolicyError α} {next : α → Except PolicyError β}
    (first : Settles legible blocked reading)
    (rest : ∀ result, reading = .ok result → Settles legible blocked (next result)) :
    Settles legible blocked (reading >>= next) := by
  intro error failed
  rcases bind_eq_error.mp failed with failed | ⟨result, read, failed⟩
  · exact first error failed
  · exact rest result read error failed

theorem mapM {items : List α} {step : α → Except PolicyError β}
    (each : ∀ item ∈ items, Settles legible blocked (step item)) :
    Settles legible blocked (items.mapM step) := by
  intro error failed
  obtain ⟨item, member, failed⟩ := exists_of_mapM_eq_error failed
  exact each item member error failed

theorem display {value : Value} (written : legible → value.Written) :
    Settles legible blocked (value.display.mapError PolicyError.shape) := by
  intro error failed
  cases shown : value.display with
  | ok text =>
    rw [shown] at failed
    cases failed
  | error fault =>
    rw [shown] at failed
    cases failed
    exact .fault fault fun given => (Value.display_eq_error shown).2 (written given)

end Settles

variable {raw : Value}

theorem LintRule.settles_parse (written : legible → raw.Written) :
    Settles legible blocked (LintRule.parse raw) := by
  unfold LintRule.parse
  split
  next text =>
    split
    · split
      · exact .ok _
      · exact .showing rfl written
    · exact .showing rfl written
  next entries =>
    split
    · split
      · exact .showing rfl written
      · dsimp only
        split
        · exact .showing rfl fun given => (written given).getD .null
        · exact .ok _
    · exact .showing rfl written
  next => exact .showing rfl written

theorem LintPolicy.settles_parse (written : legible → raw.Written) :
    Settles legible blocked (LintPolicy.parse raw) := by
  unfold LintPolicy.parse
  split
  next => exact .ok _
  next items =>
    refine .bind (.mapM fun item member => ?_) fun rules _ => .ok _
    exact LintRule.settles_parse fun given => (written given).items item member
  next => exact .silent rfl

theorem Requirement.settles_parse (written : legible → raw.Written) :
    Settles legible blocked (Requirement.parse raw) := by
  unfold Requirement.parse
  split
  next text =>
    split
    · exact .ok _
    · exact .showing rfl written
  next entries =>
    split
    · split
      · exact .showing rfl written
      · split
        next => exact .ok _
        next => exact .ok _
        next version held =>
          exact .bind (.display fun given => (written given).get? held) fun text _ => .ok _
    · exact .showing rfl written
  next => exact .showing rfl written

namespace VendorPolicy

variable {given : Option Value}

theorem settles_enabledOf : Settles legible blocked (enabledOf given) := by
  unfold enabledOf
  split
  · exact .ok _
  · exact .ok _
  · exact .silent rfl

theorem settles_pathOf : Settles legible blocked (pathOf given) := by
  unfold pathOf
  split
  · exact .ok _
  · split
    · exact .silent rfl
    · exact .ok _
  · exact .silent rfl

theorem settles_requiresOf : Settles legible blocked (requiresOf given) := by
  unfold requiresOf
  split
  · exact .ok _
  · exact .ok _
  · split
    · exact .silent rfl
    · exact .ok _

theorem settles_nameOf {standard : String}
    (written : legible → ∀ value, given = some value → value.Written) :
    Settles legible blocked (nameOf standard given) := by
  unfold nameOf
  split
  · exact .ok _
  · exact .display fun legible => written legible _ rfl

theorem requires_written {items : List Value} (read : requiresOf given = .ok items)
    (written : ∀ value, given = some value → value.Written) : ∀ item ∈ items, item.Written := by
  unfold requiresOf at read
  split at read
  next =>
    cases read
    exact List.forall_mem_nil _
  next =>
    cases read
    exact (written _ rfl).items
  next =>
    split at read
    · cases read
    · cases read
      exact List.forall_mem_nil _

theorem settles_parse (written : legible → raw.Written) :
    Settles legible blocked (VendorPolicy.parse raw) := by
  unfold VendorPolicy.parse
  split
  next => exact .ok _
  next entries =>
    have held (name : String) (given : legible) :
        ∀ value, Record.get? entries name = some value → value.Written :=
      fun value found => (written given).get? found
    refine .bind settles_enabledOf fun enabled _ => ?_
    refine .bind settles_pathOf fun path _ => ?_
    refine .bind settles_requiresOf fun items read => ?_
    refine .bind (settles_nameOf (held "replaces")) fun replaces _ => ?_
    refine .bind (settles_nameOf (held "source_name")) fun sourceName _ => ?_
    refine .bind (.mapM fun item member => ?_) fun requires _ => .ok _
    exact Requirement.settles_parse fun given =>
      requires_written read (held "requires" given) item member
  next => exact .silent rfl

end VendorPolicy

theorem Alias.settles_token {name : String} (written : legible → raw.Written) :
    Settles legible blocked (Alias.token name raw) := by
  unfold Alias.token
  split
  · exact .ok _
  · exact .ok _
  · split
    · exact .showing rfl written
    · exact .ok _
  · exact .showing rfl written

theorem Alias.settles_parse {name : Value} (written : legible → raw.Written) :
    Settles legible blocked (Alias.parse name raw) := by
  unfold Alias.parse
  split
  · split
    · exact .silent rfl
    · split
      next text =>
        refine .bind (.mapM fun item member => ?_) fun tokens _ => .ok _
        obtain ⟨word, -, rfl⟩ := List.mem_map.mp member
        exact settles_token fun _ => .text word
      next items =>
        refine .bind (.mapM fun item member => ?_) fun tokens _ => .ok _
        exact settles_token fun given => (written given).items item member
      next => exact .silent rfl
  · exact .silent rfl

namespace AliasTable

variable {table : AliasTable}

theorem settles_add {entry : Alias} {allowReserved : Bool} :
    Settles legible blocked (table.add entry allowReserved) := by
  unfold add
  split
  · exact .silent rfl
  · split
    · exact .silent rfl
    · exact .ok _

theorem settles_declare {entries : List (Scalar × Value)}
    (written : legible → ∀ entry ∈ entries, entry.2.Written) :
    Settles legible blocked (table.declare entries) := by
  induction entries generalizing table with
  | nil => exact .ok _
  | cons entry rest ih =>
    refine .bind (Alias.settles_parse fun given => written given entry List.mem_cons_self) ?_
    intro read _
    refine .bind settles_add fun next _ => ih fun given other member => ?_
    exact written given other (List.mem_cons_of_mem _ member)

theorem settles_install {entries : List Alias} :
    Settles legible blocked (table.install entries) := by
  induction entries generalizing table with
  | nil => exact .ok _
  | cons entry rest ih => exact .bind settles_add fun next _ => ih

theorem settles_ofSection {builtin : List Alias} (written : legible → raw.Written) :
    Settles legible blocked (ofSection raw builtin) := by
  unfold ofSection
  split
  next =>
    refine .bind (.ok []) ?_
    rintro _ ⟨⟩
    exact .bind settles_install fun table _ => settles_declare fun _ => List.forall_mem_nil _
  next entries =>
    refine .bind (.ok entries) ?_
    rintro _ ⟨⟩
    exact .bind settles_install fun table _ =>
      settles_declare fun given => (written given).entries
  next => exact .silent rfl

end AliasTable

theorem Stage.settles_parse {place : Int} (written : legible → raw.Written)
    (short : legible → Number.isShort place = true) :
    Settles legible blocked (Stage.parse raw place) := by
  have numbered (given : legible) : (Value.int place).Written := .int (short given)
  unfold Stage.parse
  split
  next entries =>
    split
    next name _ =>
      split
      · exact .showing rfl numbered
      · dsimp only
        split
        · exact .silent rfl
        · refine .bind ?_ fun alias_ _ => .bind ?_ fun arguments _ => ?_
          · unfold parseAlias
            split
            · exact .ok _
            · split
              · exact .silent rfl
              · exact .ok _
            · exact .silent rfl
          · unfold parseArguments
            split
            · exact .ok _
            · exact .ok _
            · split
              · exact .ok _
              · exact .silent rfl
            · exact .silent rfl
          · split
            · exact .ok _
            · exact .ok _
            · exact .silent rfl
    next => exact .showing rfl numbered
  next =>
    refine .raised fun given => ?_
    exact List.forall_mem_cons.mpr ⟨numbered given, List.forall_mem_singleton.mpr (written given)⟩

/-- A stage has its own ordinal, or its place. -/
theorem Stage.short_of_parse {place : Int} {stage : Stage} (read : Stage.parse raw place = .ok stage)
    (written : raw.Written) (short : Number.isShort place = true) :
    Number.isShort stage.ordinal = true := by
  unfold Stage.parse at read
  split at read
  next entries =>
    split at read
    next name _ =>
      split at read
      · cases read
      · dsimp only at read
        split at read
        · cases read
        · obtain ⟨alias_, -, read⟩ := bind_eq_ok.mp read
          obtain ⟨arguments, -, read⟩ := bind_eq_ok.mp read
          split at read
          next =>
            cases read
            exact short
          next ordinal held =>
            cases read
            exact (written.get? held).leaf
          next => cases read
    next => cases read
  next => cases read

namespace Policy

variable {config pipeline : Record} {items : List Value} {place : Nat}

theorem short_place (few : place + items.length ≤ 10 ^ Number.maxDigits) (filled : items ≠ []) :
    Number.isShort place = true := by
  have some := List.length_pos_iff.mpr filled
  rw [Number.isShort_iff, Int.natAbs_natCast]
  omega

theorem settles_parseStages (written : legible → ∀ item ∈ items, item.Written)
    (few : legible → place + items.length ≤ 10 ^ Number.maxDigits) :
    Settles legible blocked (parseStages place items) := by
  induction items generalizing place with
  | nil => exact .ok _
  | cons item rest ih =>
    have first : Settles legible blocked (Stage.parse item place) :=
      Stage.settles_parse (fun given => written given item List.mem_cons_self)
        fun given => short_place (few given) (List.cons_ne_nil _ _)
    refine .bind first fun stage _ => .bind (ih ?_ ?_) fun stages _ => .ok _
    · exact fun given other member => written given other (List.mem_cons_of_mem _ member)
    · intro given
      have bound := few given
      rw [List.length_cons] at bound
      omega

theorem short_of_parseStages {stages : List Stage} (read : parseStages place items = .ok stages)
    (written : ∀ item ∈ items, item.Written)
    (few : place + items.length ≤ 10 ^ Number.maxDigits) :
    ∀ stage ∈ stages, Number.isShort stage.ordinal = true := by
  induction items generalizing place stages with
  | nil =>
    cases read
    exact List.forall_mem_nil _
  | cons item rest ih =>
    obtain ⟨stage, first, read⟩ := bind_eq_ok.mp read
    obtain ⟨later, reads, same⟩ := bind_eq_ok.mp read
    cases same
    obtain ⟨itemWritten, restWritten⟩ := List.forall_mem_cons.mp written
    refine List.forall_mem_cons.mpr ⟨?_, ih reads restWritten ?_⟩
    · exact Stage.short_of_parse first itemWritten (short_place few (List.cons_ne_nil _ _))
    · rw [List.length_cons] at few
      omega

theorem settles_planStages {stages : List Stage}
    (short : legible → ∀ stage ∈ stages, Number.isShort stage.ordinal = true) :
    Settles legible blocked (planStages stages) := by
  intro error failed
  cases refused_of_planStages failed with
  | duplicate => exact .reason _
  | @unwritten ordinal repeated long =>
    refine .fault _ fun given => ?_
    have held : ordinal ∈ stages.map Stage.ordinal :=
      List.count_pos_iff.mp (Nat.lt_trans Nat.zero_lt_one repeated)
    obtain ⟨stage, member, rfl⟩ := List.mem_map.mp held
    rw [short given stage member] at long
    cases long

theorem settles_stagesOf {aliases : AliasTable}
    (written : legible → (Value.map pipeline).Written)
    (few : legible → ∀ items, Record.get? pipeline "stages" = some (.list items) →
      items.length ≤ 10 ^ Number.maxDigits) :
    Settles legible blocked (stagesOf pipeline aliases) := by
  unfold stagesOf
  dsimp only
  split
  · exact .ok _
  · split
    next items listed =>
      have found : Record.get? pipeline "stages" = some (.list items) := by
        cases held : Record.get? pipeline "stages" with
        | none =>
          rw [held] at listed
          cases listed
        | some value =>
          rw [held] at listed
          exact congrArg some listed
      have parts (given : legible) : ∀ item ∈ items, item.Written :=
        ((written given).get? found).items
      have bound (given : legible) : 0 + items.length ≤ 10 ^ Number.maxDigits := by
        rw [Nat.zero_add]
        exact few given items found
      refine .bind (settles_parseStages parts bound) fun stages read => ?_
      split
      · exact .silent rfl
      · exact settles_planStages fun given => short_of_parseStages read (parts given) (bound given)
    next => exact .silent rfl

theorem written_command (raw : Value) : raw.Written → (match raw with
    | .text text => Value.ofTexts (Text.words text)
    | _ => raw : Value).Written := by
  intro written
  split
  · exact .ofTexts _
  · exact written

theorem settles_doctorCommand (written : legible → raw.Written) :
    Settles legible blocked (doctorCommand raw) := by
  have entry (given : legible) := written_command raw (written given)
  unfold doctorCommand
  dsimp only
  split
  · split
    · exact .ok _
    · exact .showing rfl entry
  · exact .showing rfl entry

theorem settles_doctorOf (written : legible → raw.Written) :
    Settles legible blocked (doctorOf raw) := by
  unfold doctorOf
  split
  · exact .mapM fun item member =>
      settles_doctorCommand fun given => (written given).items item member
  · exact .ok _

theorem settles_depthOf {resolver : Record} : Settles legible blocked (depthOf resolver) := by
  unfold depthOf
  split
  · exact .ok _
  · split
    · exact .ok _
    · exact .silent rfl
  · exact .silent rfl

theorem settles_toolchainOf : Settles legible blocked (toolchainOf config) := by
  unfold toolchainOf
  split
  · exact .ok _
  · split
    · exact .silent rfl
    · exact .ok _
  · exact .silent rfl

theorem settles_sectionOf {name : String} {expected : Kind} :
    Settles legible blocked (sectionOf config name expected) := by
  unfold sectionOf
  split
  · exact .ok _
  · exact .ok _
  · split
    · exact .ok _
    · exact .silent rfl

theorem section_cases {name : String} {expected : Kind} {section_ : Value}
    (read : sectionOf config name expected = .ok section_) :
    section_ = .null ∨ Record.get? config name = some section_ := by
  unfold sectionOf at read
  split at read
  · exact .inl (Except.ok.inj read).symm
  · exact .inl (Except.ok.inj read).symm
  next value _ held =>
    split at read
    · cases read
      exact .inr held
    · cases read

theorem written_of_section {name : String} {expected : Kind} {section_ : Value}
    (read : sectionOf config name expected = .ok section_) (written : (Value.map config).Written) :
    section_.Written := by
  rcases section_cases read with rfl | held
  · exact .null
  · exact written.get? held

end Policy

theorem TriggerPolicy.settles_parseEntries {table : Entries String (List String)}
    {entries : List (Scalar × Value)} (written : legible → ∀ entry ∈ entries, entry.1.Written) :
    Settles legible blocked (parseEntries table entries) := by
  fun_induction parseEntries table entries with
  | case1 => exact .ok _
  | case2 table event rest known items texts read ih =>
    exact ih fun given entry member => written given entry (List.mem_cons_of_mem _ member)
  | case5 | case6 => exact .showing rfl fun given => .scalar (written given _ List.mem_cons_self)
  | _ => exact .silent rfl

theorem TriggerPolicy.settles_parse (written : legible → raw.Written) :
    Settles legible blocked (TriggerPolicy.parse raw) := by
  unfold TriggerPolicy.parse
  split
  · exact .ok _
  next entries =>
    intro error failed
    cases read : parseEntries [] entries with
    | ok table =>
      rw [read] at failed
      cases failed
    | error fault =>
      rw [read] at failed
      cases failed
      exact settles_parseEntries (fun given => (written given).keys) _ read
  · exact .silent rfl

theorem Environment.settles_parse (written : legible → raw.Written) :
    Settles legible blocked (Environment.parse raw) := by
  unfold Environment.parse
  split
  · exact .ok _
  next entries =>
    dsimp only
    split
    · exact .ok _
    · exact .ok _
    next value _ held =>
      exact .bind (.display fun given => (written given).get? held) fun text _ => .ok _
  · exact .silent rfl

end Readings

namespace Policy

/-- What keeps the vendored sources from being looked at. -/
inductive Blocked (check : VendorCheck) (config : Record) (fault : FileTree.Fault) : Prop
  | directory {tree : FileTree} {base : Path} {section_ : Value} {vendor : VendorPolicy}
      (looks : check = .verified tree base) (found : sectionOf config "vendor" .map = .ok section_)
      (read : VendorPolicy.parse section_ = .ok vendor) (enabled : vendor.enabled = true)
      (refused : tree.access (vendor.directoryIn base) = .error fault)

/-- Nothing in the configuration is without a text, and no stage has a place without one. -/
structure Legible (config : Record) : Prop where
  written : (Value.map config).Written
  few : ∀ pipeline items, Record.get? config "pipeline" = some (.map pipeline) →
    Record.get? pipeline "stages" = some (.list items) → items.length ≤ 10 ^ Number.maxDigits

theorem settles_overrideOf {legible : Prop} (vendor : VendorPolicy) (check : VendorCheck) :
    Settles legible (fun fault => ∃ tree base, check = .verified tree base ∧
      vendor.enabled = true ∧ tree.access (vendor.directoryIn base) = .error fault)
      (overrideOf vendor check) := by
  cases check with
  | declared => exact .ok _
  | verified tree base =>
    unfold overrideOf VendorPolicy.verified
    dsimp only
    split
    next enabled =>
      split
      next fault refused =>
        rintro _ ⟨⟩
        exact .system ⟨tree, base, rfl, enabled, refused⟩
      · exact .silent rfl
      · split
        · exact .ok _
        · exact .silent rfl
    · exact .ok _

/-- The sections of a configuration are read, or refused for a reason, or something in it has no
text, or the system keeps the vendored sources from being looked at. -/
theorem settles_loadSections (check : VendorCheck) (config : Record) (identity : String) :
    Settles (Legible config) (Blocked check config) (loadSections check config identity) := by
  have part {name : String} {expected : Kind} {section_ : Value}
      (read : sectionOf config name expected = .ok section_) (legible : Legible config) :
      section_.Written := written_of_section read legible.written
  unfold loadSections
  refine .bind settles_toolchainOf fun toolchain _ => ?_
  refine .bind settles_sectionOf fun vendorSection found => ?_
  refine .bind (VendorPolicy.settles_parse (part found)) fun vendor read => ?_
  refine .bind ?_ fun override _ => ?_
  · intro error failed
    cases settles_overrideOf vendor check error failed with
    | reason error => exact .reason error
    | fault fault illegible => exact .fault fault illegible
    | system refused =>
      obtain ⟨tree, base, looks, enabled, refused⟩ := refused
      exact .system (.directory looks found read enabled refused)
  refine .bind settles_sectionOf fun aliasSection found => ?_
  refine .bind (AliasTable.settles_ofSection (part found)) fun aliases _ => ?_
  refine .bind settles_sectionOf fun lintSection found => ?_
  refine .bind (LintPolicy.settles_parse (part found)) fun lints _ => ?_
  refine .bind settles_sectionOf fun pipeline found => ?_
  have entries (legible : Legible config) : (Value.map (entriesOf pipeline)).Written := by
    have written := part found legible
    cases pipeline with
    | map entries => exact written
    | _ => exact .map (List.forall_mem_nil _) (List.forall_mem_nil _)
  have few (legible : Legible config) (items : List Value)
      (listed : Record.get? (entriesOf pipeline) "stages" = some (.list items)) :
      items.length ≤ 10 ^ Number.maxDigits := by
    rcases section_cases found with rfl | held
    · cases listed
    · cases pipeline with
      | map fields => exact legible.few fields items held listed
      | _ => cases listed
  refine .bind (settles_stagesOf entries few) fun stages _ => ?_
  refine .bind (TriggerPolicy.settles_parse fun legible => (entries legible).getD .null)
    fun triggers _ => ?_
  refine .bind (Environment.settles_parse fun legible => (entries legible).getD .null)
    fun environment _ => ?_
  refine .bind settles_sectionOf fun resolver _ => ?_
  refine .bind settles_depthOf fun depth _ => ?_
  refine .bind settles_sectionOf fun doctorSection found => ?_
  exact .bind (settles_doctorOf (part found)) fun doctor _ => .ok _

end Policy
end BuildRules
