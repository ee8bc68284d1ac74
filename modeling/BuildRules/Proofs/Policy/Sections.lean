import BuildRules.Policy
import BuildRules.Proofs.Config.Agreement
import BuildRules.Proofs.Value.Reordered

namespace BuildRules

open Value

variable {left right : Value} {entries fields : Record} {items others : List Value}

/-- A refusal of a value shows it in one form or the other. -/
theorem shown_alike (error : Value → ConfigError) {category : ConfigError.Category}
    (same : ∀ value, (error value).category = category)
    (shown : ∀ value, (error value).shown = [value]) (reordered : Reordered left right) :
    (PolicyError.raised (error left)).Alike (.raised (error right)) := by
  refine (PolicyError.of_raised (same left) ?_).alike (PolicyError.of_raised (same right) ?_)
  · simpa [shown] using reordered.written
  · simpa [shown] using reordered.rightWritten

section Lints

/-- The text of a list begins with a bracket, that of a map with a brace. -/
theorem ofName?_of_first {text : String} {c : Char} (rest : List Char)
    (first : text.toList = c :: rest) (bracket : c = '[' ∨ c = '\x7b') :
    Severity.ofName? (Text.lowerAscii text) = none := by
  have chars : (Text.lowerAscii text).toList = c :: rest.map Char.toLower := by
    rcases bracket with rfl | rfl <;> simp [Text.lowerAscii, first]
  have apart (name : String) (d : Char) (tail : List Char) (spelled : name.toList = d :: tail)
      (other : d ≠ c) : (Text.lowerAscii text == name) = false := by
    rw [beq_eq_false_iff_ne]
    rintro rfl
    rw [chars] at spelled
    exact other (List.cons.inj spelled).1.symm
  have warn : 'w' ≠ c := by rcases bracket with rfl | rfl <;> decide
  have deny : 'd' ≠ c := by rcases bracket with rfl | rfl <;> decide
  rw [Severity.ofName?, apart "warn" 'w' _ rfl warn, apart "deny" 'd' _ rfl deny]
  rfl

theorem severity_of_bracket {shown : Except Fault (List String)} {opening closing : String}
    {c : Char} (first : opening.toList = [c]) (bracket : c = '[' ∨ c = '\x7b') :
    ((do .ok (opening ++ ", ".intercalate (← shown) ++ closing) :
        Except Fault String).toOption.bind
      fun text => Severity.ofName? (Text.lowerAscii text)) = none := by
  cases shown with
  | error fault => rfl
  | ok texts =>
    refine ofName?_of_first ((", ".intercalate texts) ++ closing).toList ?_ bracket
    simp [first]

theorem severity_list (items : List Value) : ((Value.list items).display.toOption.bind
    fun text => Severity.ofName? (Text.lowerAscii text)) = none := by
  rw [Value.display, Value.quoted]
  · exact severity_of_bracket rfl (.inl rfl)
  · intro _ same
    cases same

theorem severity_map (entries : Record) : ((Value.map entries).display.toOption.bind
    fun text => Severity.ofName? (Text.lowerAscii text)) = none := by
  rw [Value.display, Value.quoted]
  · exact severity_of_bracket rfl (.inr rfl)
  · intro _ same
    cases same

theorem LintRule.parse_reordered (reordered : Reordered left right) :
    Agree Eq (LintRule.parse left) (LintRule.parse right) := by
  have malformed := shown_alike .lintMalformed (fun _ => rfl) (fun _ => rfl) reordered
  have nameless := shown_alike .lintNameless (fun _ => rfl) (fun _ => rfl) reordered
  cases reordered.shape with
  | scalar leaf => exact .refl _
  | list parts => exact .error malformed
  | @map entries fields parts =>
    have name := parts.get? "name"
    have severity := parts.get? "severity"
    have override := (parts.get? "override").truthy_eq false
    simp only [LintRule.parse, override]
    generalize Record.get? entries "name" = given, Record.get? fields "name" = other at name ⊢
    cases name with
    | absent | list | map => exact .error nameless
    | scalar leaf =>
      cases leaf with
      | null | bool | int | float | foreign => exact .error nameless
      | text name =>
        dsimp only
        split
        next => exact .error nameless
        next =>
          have wrong := shown_alike (.lintSeverity name) (fun _ => rfl) (fun _ => rfl)
            severity.getD
          generalize Record.get? entries "severity" = given,
            Record.get? fields "severity" = other at severity wrong ⊢
          cases severity with
          | absent => exact .refl _
          | scalar leaf => exact .refl _
          | list => simp only [Option.getD_some, severity_list]; exact .error wrong
          | map => simp only [Option.getD_some, severity_map]; exact .error wrong

theorem LintPolicy.parse_reordered (reordered : Reordered left right) :
    Agree Eq (LintPolicy.parse left) (LintPolicy.parse right) := by
  cases reordered.shape with
  | scalar leaf => exact .refl _
  | list parts =>
    refine (Agree.mapM_eq parts fun _ _ => LintRule.parse_reordered).bind ?_
    rintro rules _ rfl
    exact .refl _
  | map => exact .error (.refl _)

end Lints

section Stages

variable {name : String}

theorem Stage.parseAlias_reordered (reordered : Reordered left right) :
    Agree Eq (Stage.parseAlias name left) (Stage.parseAlias name right) := by
  cases reordered.shape with
  | scalar leaf => exact .refl _
  | list | map => exact .error (.refl _)

theorem Stage.parseArguments_reordered (reordered : Reordered left right) :
    Agree Eq (Stage.parseArguments name left) (Stage.parseArguments name right) := by
  cases reordered.shape with
  | scalar leaf => exact .refl _
  | list parts =>
    simp only [Stage.parseArguments, Reordered.asTexts?_eq parts]
    exact .refl _
  | map => exact .error (.refl _)

/-- A place that has no text keeps both forms of a value from being shown. -/
theorem Stage.notMap_alike (reordered : Reordered left right) (place : Int) :
    (PolicyError.raised (.stageNotMap place left)).Alike (.raised (.stageNotMap place right)) := by
  cases short : Number.isShort place with
  | true =>
    have written {raw : Value} (written : raw.Written) :
        ∀ value ∈ (ConfigError.stageNotMap place raw).shown, value.Written := by
      simp [ConfigError.shown, written, Written.int short]
    exact (PolicyError.of_raised rfl (written reordered.written)).alike
      (PolicyError.of_raised rfl (written reordered.rightWritten))
  | false =>
    have unnamed (raw : Value) :
        PolicyError.raised (.stageNotMap place raw) = .shape .integerTooLong := by
      rw [PolicyError.raised, ConfigError.message, Number.display, short]
      rfl
    rw [unnamed, unnamed]
    exact .refl _

theorem Stage.parse_reordered (reordered : Reordered left right) (place : Int) :
    Agree Eq (Stage.parse left place) (Stage.parse right place) := by
  have notMap := Stage.notMap_alike reordered place
  cases reordered.shape with
  | scalar leaf => cases leaf <;> exact .error notMap
  | list parts => exact .error notMap
  | @map entries fields parts =>
    have name := parts.get? "name"
    have alias_ := (parts.get? "alias").getD
    have arguments := (parts.get? "args").getD
    have ordinal := parts.get? "ordinal"
    simp only [Stage.parse]
    generalize Record.get? entries "name" = given, Record.get? fields "name" = other at name ⊢
    cases name with
    | absent | list | map => exact .error (.refl _)
    | scalar leaf =>
      cases leaf with
      | null | bool | int | float | foreign => exact .error (.refl _)
      | text name =>
        dsimp only
        -- the order of entries does not change whether a stage has both an alias and arguments
        rw [alias_.isNull_eq, arguments.isNull_eq]
        split
        next => exact .error (.refl _)
        next =>
          split
          next => exact .error (.refl _)
          next =>
            refine (Stage.parseAlias_reordered alias_).bind ?_
            rintro read _ rfl
            refine (Stage.parseArguments_reordered arguments).bind ?_
            rintro words _ rfl
            generalize Record.get? entries "ordinal" = given,
              Record.get? fields "ordinal" = other at ordinal ⊢
            cases ordinal with
            | absent => exact .refl _
            | scalar leaf => exact .refl _
            | list | map => exact .error (.refl _)

theorem Policy.parseStages_reordered (place : Nat) (parts : List.Forall₂ Reordered items others) :
    Agree Eq (Policy.parseStages place items) (Policy.parseStages place others) := by
  induction parts generalizing place with
  | nil => exact .refl _
  | cons part _ ih =>
    rw [Policy.parseStages, Policy.parseStages]
    refine (Stage.parse_reordered part place).bind ?_
    rintro stage _ rfl
    refine (ih (place + 1)).bind ?_
    rintro stages _ rfl
    exact .refl _

/-- Whether the aliases of stages are declared is all that is asked of the table. -/
theorem Policy.stagesOf_reordered (reordered : Reordered (.map entries) (.map fields))
    {table other : AliasTable} (tables : ∀ name, table.has name = other.has name) :
    Agree Eq (Policy.stagesOf entries table) (Policy.stagesOf fields other) := by
  have stages := (reordered.get? "stages").getD
  have declared (read : List Stage) : Policy.undeclared? table read = Policy.undeclared? other read := by
    simp only [Policy.undeclared?, tables]
  simp only [Policy.stagesOf, stages.truthy_eq]
  split
  next => exact .refl _
  next =>
    generalize (Record.get? entries "stages").getD .null = raw,
      (Record.get? fields "stages").getD .null = given at stages ⊢
    cases stages.shape with
    | scalar leaf => exact .refl _
    | list parts =>
      refine (Policy.parseStages_reordered 0 parts).bind ?_
      rintro read _ rfl
      rw [declared]
      exact .refl _
    | map => exact .error (.refl _)

end Stages

def Record.LeafAt (record : Record) (name : String) : Prop :=
  ∀ value, Record.get? record name = some value → ∃ leaf, value = .scalar leaf

section Vendor

theorem Requirement.parse_reordered (reordered : Reordered left right)
    (version : ∀ entries, left = .map entries → Record.LeafAt entries "version") :
    Agree Eq (Requirement.parse left) (Requirement.parse right) := by
  have malformed := shown_alike .requirementMalformed (fun _ => rfl) (fun _ => rfl)
    reordered
  cases reordered.shape with
  | scalar leaf => exact .refl _
  | list parts => exact .error malformed
  | @map entries fields parts =>
    have name := parts.get? "name"
    have versions := (parts.get? "version").eq_of_leaf (version entries rfl)
    simp only [Requirement.parse, versions]
    generalize Record.get? entries "name" = given, Record.get? fields "name" = other at name ⊢
    cases name with
    | absent | list | map => exact .error malformed
    | scalar leaf =>
      cases leaf with
      | null | bool | int | float | foreign => exact .error malformed
      | text name =>
        dsimp only
        split
        next => exact .error malformed
        next => exact .refl _

/-- Fields of the section whose text is taken over as it is shown. -/
structure VendorPolicy.Spelled (vendor : Record) : Prop where
  replaces : Record.LeafAt vendor "replaces"
  sourceName : Record.LeafAt vendor "source_name"
  versions : ∀ items, Record.get? vendor "requires" = some (.list items) →
    ∀ entries, .map entries ∈ items → Record.LeafAt entries "version"

namespace VendorPolicy

theorem enabledOf_found {given other : Option Value} (found : Reordered.Found given other) :
    Agree Eq (enabledOf given) (enabledOf other) := by
  cases found with
  | absent => exact .refl _
  | scalar leaf => exact .refl _
  | list | map => exact .error (.refl _)

theorem pathOf_found {given other : Option Value} (found : Reordered.Found given other) :
    Agree Eq (pathOf given) (pathOf other) := by
  cases found with
  | absent => exact .refl _
  | scalar leaf => exact .refl _
  | list | map => exact .error (.refl _)

/-- An item of the requirements, with a version that is shown alike in both. -/
def Required (item other : Value) : Prop :=
  Reordered item other ∧ ∀ entries, item = .map entries → Record.LeafAt entries "version"

theorem requiresOf_found {given other : Option Value} (found : Reordered.Found given other)
    (versions : ∀ items, given = some (.list items) →
      ∀ entries, .map entries ∈ items → Record.LeafAt entries "version") :
    Agree (List.Forall₂ Required) (requiresOf given) (requiresOf other) := by
  have nothing : Agree (List.Forall₂ Required) (.ok []) (.ok []) := .ok .nil
  cases found with
  | absent => exact nothing
  | scalar leaf =>
    simp only [requiresOf]
    split
    · exact .error (.refl _)
    · exact nothing
  | list parts =>
    refine .ok (forall₂_imp_mem parts fun item member other _ part => ⟨part, ?_⟩)
    rintro entries rfl
    exact versions _ rfl entries member
  | map parts =>
    simp only [requiresOf, parts.truthy_eq]
    split
    · exact .error (.refl _)
    · exact nothing

theorem parse_reordered (reordered : Reordered left right)
    (spelled : ∀ vendor, left = .map vendor → Spelled vendor) :
    Agree Eq (VendorPolicy.parse left) (VendorPolicy.parse right) := by
  cases reordered.shape with
  | scalar leaf => exact .refl _
  | list => exact .error (.refl _)
  | @map entries fields parts =>
    obtain ⟨replaces, sourceName, versions⟩ := spelled entries rfl
    simp only [VendorPolicy.parse, (parts.get? "replaces").eq_of_leaf replaces,
      (parts.get? "source_name").eq_of_leaf sourceName]
    refine (enabledOf_found (parts.get? "enabled")).bind ?_
    rintro enabled _ rfl
    refine (pathOf_found (parts.get? "path")).bind ?_
    rintro path _ rfl
    refine (requiresOf_found (parts.get? "requires") versions).bind fun items others required => ?_
    refine (Agree.refl (nameOf "crates-io" _)).bind ?_
    rintro replaces _ rfl
    refine (Agree.refl (nameOf "vendored-sources" _)).bind ?_
    rintro sourceName _ rfl
    refine (Agree.mapM_eq required fun item other pair =>
      Requirement.parse_reordered pair.1 pair.2).bind ?_
    rintro requires _ rfl
    exact .refl _

end VendorPolicy
end Vendor

section Run

theorem Environment.parse_reordered (reordered : Reordered left right)
    (spelled : ∀ environment, left = .map environment → Record.LeafAt environment "backtrace") :
    Agree Eq (Environment.parse left) (Environment.parse right) := by
  cases reordered.shape with
  | scalar leaf => exact .refl _
  | list => exact .error (.refl _)
  | @map entries fields parts =>
    have color := parts.get? "force_color"
    simp only [Environment.parse, (parts.get? "backtrace").eq_of_leaf (spelled entries rfl)]
    generalize Record.get? entries "force_color" = given,
      Record.get? fields "force_color" = other at color ⊢
    cases color with
    | absent => exact .refl _
    | scalar leaf => exact .refl _
    | list parts =>
      simp only [(Reordered.list parts).truthy_eq]
      exact .refl _
    | map parts =>
      simp only [parts.truthy_eq]
      exact .refl _

end Run

section Doctor

theorem Policy.doctorCommand_reordered (reordered : Reordered left right) :
    Agree Eq (Policy.doctorCommand left) (Policy.doctorCommand right) := by
  have malformed := shown_alike .doctorCommand (fun _ => rfl) (fun _ => rfl) reordered
  cases reordered.shape with
  | scalar leaf => exact .refl _
  | list parts =>
    simp only [Policy.doctorCommand, Reordered.asTexts?_eq parts]
    split
    · exact .refl _
    · exact .error malformed
  | map => exact .error malformed

theorem Policy.doctorOf_reordered (reordered : Reordered left right) :
    Agree Eq (Policy.doctorOf left) (Policy.doctorOf right) := by
  cases reordered.shape with
  | scalar leaf => exact .refl _
  | list parts => exact Agree.mapM_eq parts fun _ _ => Policy.doctorCommand_reordered
  | map => exact .ok rfl

theorem Policy.depthOf_reordered (reordered : Reordered (.map entries) (.map fields)) :
    Agree Eq (Policy.depthOf entries) (Policy.depthOf fields) := by
  have depth := reordered.get? "max_depth"
  simp only [Policy.depthOf]
  generalize Record.get? entries "max_depth" = given,
    Record.get? fields "max_depth" = other at depth ⊢
  cases depth with
  | absent => exact .refl _
  | scalar leaf => exact .refl _
  | list | map => exact .error (.refl _)

theorem Policy.toolchainOf_reordered (reordered : Reordered (.map entries) (.map fields)) :
    Agree Eq (Policy.toolchainOf entries) (Policy.toolchainOf fields) := by
  have toolchain := reordered.get? "toolchain"
  simp only [Policy.toolchainOf]
  generalize Record.get? entries "toolchain" = given,
    Record.get? fields "toolchain" = other at toolchain ⊢
  cases toolchain with
  | absent => exact .refl _
  | scalar leaf => exact .refl _
  | list | map => exact .error (.refl _)

end Doctor

namespace Policy

theorem sectionOf_reordered (reordered : Reordered (.map entries) (.map fields)) (name : String)
    (expected : Kind) :
    Agree Reordered (sectionOf entries name expected) (sectionOf fields name expected) := by
  have section_ := reordered.get? name
  simp only [sectionOf]
  generalize Record.get? entries name = given, Record.get? fields name = other at section_ ⊢
  have whole {value same : Value} (reordered : Reordered value same) :
      Agree Reordered
        (if value.kind = expected then .ok value
          else .error (.raised (.sectionKind name expected value.kind)))
        (if same.kind = expected then .ok same
          else .error (.raised (.sectionKind name expected same.kind))) := by
    rw [reordered.kind_eq]
    split
    · exact .ok reordered
    · exact .error (.refl _)
  cases section_ with
  | absent => exact .ok .null
  | scalar leaf written =>
    cases leaf with
    | null => exact .ok .null
    | _ => exact whole (.scalar written)
  | list parts => exact whole (.list parts)
  | map parts => exact whole parts

theorem entriesOf_reordered (reordered : Reordered left right) :
    Reordered (.map (entriesOf left)) (.map (entriesOf right)) := by
  have nothing : Reordered (.map []) (.map []) := by
    have plain : Plain (.map []) := .map (by simp) List.nodup_nil (by simp)
    exact ⟨plain, plain, .map (by simp) (by simp), .refl _⟩
  cases reordered.shape with
  | scalar leaf => exact nothing
  | list => exact nothing
  | map parts => exact parts

end Policy
end BuildRules
