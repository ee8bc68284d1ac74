import BuildRules.Proofs.Lint.Effective
import BuildRules.Proofs.Toml.Document

namespace BuildRules

/-- No text that a native configuration shows holds a control. -/
structure Policy.ControlFree (policy : Policy) : Prop where
  names : ∀ entry ∈ policy.aliases.aliases, Toml.ControlFree entry.name
  tokens : ∀ entry ∈ policy.aliases.aliases, ∀ token ∈ entry.tokens, Toml.ControlFree token.text
  source : Toml.ControlFree policy.vendor.sourceName
  path : Toml.ControlFree policy.vendor.path
  lints : ∀ rule ∈ policy.lints.rules, Toml.ControlFree rule.name

instance (policy : Policy) : Decidable policy.ControlFree :=
  decidable_of_iff
    ((∀ entry ∈ policy.aliases.aliases, Toml.ControlFree entry.name ∧
        ∀ token ∈ entry.tokens, Toml.ControlFree token.text) ∧
      Toml.ControlFree policy.vendor.sourceName ∧ Toml.ControlFree policy.vendor.path ∧
      ∀ rule ∈ policy.lints.rules, Toml.ControlFree rule.name)
    ⟨fun ⟨aliases, source, path, lints⟩ =>
      ⟨fun entry member => (aliases entry member).1, fun entry member => (aliases entry member).2,
        source, path, lints⟩,
    fun free => ⟨fun entry member => ⟨free.names entry member, free.tokens entry member⟩,
      free.source, free.path, free.lints⟩⟩

namespace CargoConfig

open Toml

/-- The tokens of each alias by its name. -/
def aliasTable (aliases : AliasTable) : Section :=
  ⟨["alias"], aliases.aliases.map fun entry =>
    ([entry.name], texts (entry.tokens.map Token.text))⟩

def sourceTable (vendor : VendorPolicy) : Section :=
  ⟨["source", vendor.sourceName], [(["directory"], .text vendor.path)]⟩

def buildTable (lints : LintPolicy) : Section :=
  ⟨["build"], [(["rustflags"],
    texts (lints.effective.flatMap fun entry => [entry.2.flag, entry.1]))]⟩

def tables (policy : Policy) : List Section :=
  aliasTable policy.aliases ::
    ((if policy.vendor.enabled then [sourceTable policy.vendor] else []) ++
      if policy.lints.effective = [] then [] else [buildTable policy.lints])

/-- Texts that are read as the lines of tables. -/
def ReadsTables (lines : List String) (tables : List Section) : Prop :=
  List.Forall₂ ReadsLine (lines.map String.toList) (tables.flatMap Document.spaced)

theorem readsTables_nil : ReadsTables [] [] := .nil

theorem ReadsTables.append {front back : List String} {first second : List Section}
    (left : ReadsTables front first) (right : ReadsTables back second) :
    ReadsTables (front ++ back) (first ++ second) := by
  rw [ReadsTables, List.map_append, List.flatMap_append]
  exact List.rel_append left right

/-- A header, settings and an empty line are a table. -/
theorem readsTables_section {header : String} {table : Section} (settings : List String)
    (opens : ReadsLine header.toList (some (.table table.path)))
    (sets : List.Forall₂ (fun line (setting : List String × Item) =>
      ReadsLine line.toList (some (.setting setting.1 setting.2))) settings table.settings) :
    ReadsTables (header :: settings ++ [""]) [table] := by
  rw [ReadsTables, List.flatMap_singleton, List.map_append, Document.spaced]
  refine .cons opens (List.rel_append ?_ (.cons readsLine_nil .nil))
  rw [List.forall₂_map_left_iff, List.forall₂_map_right_iff]
  exact sets

theorem toList_aliasLine (entry : Alias) :
    (aliasLine entry).toList = (key entry.name).toList ++
      ' ' :: '=' :: ' ' :: (array (entry.tokens.map Token.text)).toList := by
  rw [aliasLine, String.toList_append, String.toList_append, List.append_assoc]
  rfl

theorem readsTables_alias {aliases : AliasTable}
    (names : ∀ entry ∈ aliases.aliases, ControlFree entry.name)
    (tokens : ∀ entry ∈ aliases.aliases, ∀ token ∈ entry.tokens, ControlFree token.text) :
    ReadsTables ("[alias]" :: aliases.aliases.map aliasLine ++ [""]) [aliasTable aliases] := by
  have header : ("[alias]").toList = '[' :: (pathChars ["alias"] ++ [']']) := by decide
  apply readsTables_section (aliases.aliases.map aliasLine)
  · rw [header]
    exact readsLine_table (List.cons_ne_nil _ _)
      (List.forall_mem_singleton.mpr (Toml.ControlFree.keyable (by decide)))
  · rw [aliasTable, List.forall₂_map_left_iff, List.forall₂_map_right_iff, List.forall₂_same]
    intro entry member
    have free : ∀ text ∈ entry.tokens.map Token.text, ControlFree text :=
      List.forall_mem_map.mpr (tokens entry member)
    rw [toList_aliasLine]
    exact readsLine_setting (names entry member).keyable (readsItem_array free)

theorem bareKey_source : BareKey "source" := by decide +kernel

theorem toList_sourceHeader (name : String) :
    ("[source." ++ key name ++ "]").toList =
      '[' :: (pathChars ["source", name] ++ [']']) := by
  rw [pathChars_cons_cons, pathChars_singleton, String.toList_append, String.toList_append]
  rfl

theorem readsLine_sourceHeader {vendor : VendorPolicy} (source : Keyable vendor.sourceName) :
    ReadsLine ("[source." ++ key vendor.sourceName ++ "]").toList
      (some (.table ["source", vendor.sourceName])) := by
  rw [toList_sourceHeader]
  apply readsLine_table (List.cons_ne_nil _ _)
  exact List.forall_mem_cons.mpr ⟨bareKey_source.nameable.keyable,
    List.forall_mem_singleton.mpr source⟩

theorem readsTables_source {vendor : VendorPolicy} (source : ControlFree vendor.sourceName)
    (path : ControlFree vendor.path) :
    ReadsTables (sourceLines vendor) (if vendor.enabled then [sourceTable vendor] else []) := by
  rw [sourceLines]
  split
  next =>
    have line : ("directory = " ++ Json.quoted vendor.path).toList =
        (key "directory").toList ++ ' ' :: '=' :: ' ' :: (Json.quoted vendor.path).toList := by
      rw [String.toList_append]
      rfl
    apply readsTables_section ["directory = " ++ Json.quoted vendor.path]
    · exact readsLine_sourceHeader source.keyable
    · refine .cons ?_ .nil
      rw [line]
      exact readsLine_setting (Toml.ControlFree.keyable (by decide)) (readsItem_quoted path)
  next => exact readsTables_nil

def row (pair : String × String) : String :=
  "    " ++ Json.quoted pair.1 ++ ", " ++ Json.quoted pair.2 ++ ","

def flagText (pairs : List (String × String)) : String :=
  "\n".intercalate ("rustflags = [" :: pairs.map row ++ ["]"])

theorem intercalate_cons (separator first : List Char) (rest : List (List Char)) :
    separator.intercalate (first :: rest) = first ++ rest.flatMap (separator ++ ·) := by
  induction rest generalizing first with
  | nil => rw [List.intercalate_singleton, List.flatMap_nil, List.append_nil]
  | cons next rest ih =>
    rw [List.intercalate_cons_cons, ih next, List.flatMap_cons, List.append_assoc,
      List.append_assoc]

theorem toList_flagText (pairs : List (String × String)) :
    (flagText pairs).toList =
      (key "rustflags").toList ++ ' ' :: '=' :: ' ' :: '[' :: rows pairs := by
  have line (pair : String × String) : ['\n'] ++ (row pair).toList =
      indent ++ (Json.quoted pair.1).toList ++ [',', ' '] ++ (Json.quoted pair.2).toList ++
        [','] := by
    simp [row, indent]
  rw [flagText, String.toList_intercalate, List.cons_append, List.map_cons]
  change ['\n'].intercalate _ = _
  rw [intercalate_cons, List.map_append, List.map_map, List.flatMap_append, List.flatMap_map, rows]
  simp only [Function.comp_apply, line]
  rfl

theorem readsTables_build {lints : LintPolicy}
    (free : ∀ pair ∈ lints.flagPairs, ControlFree pair.1 ∧ ControlFree pair.2) :
    ReadsTables ["[build]", flagText lints.flagPairs, ""] [buildTable lints] := by
  have header : ("[build]").toList = '[' :: (pathChars ["build"] ++ [']']) := by decide
  have flags : lints.flagPairs.flatMap both =
      lints.effective.flatMap fun entry => [entry.2.flag, entry.1] := by
    rw [LintPolicy.flagPairs, List.flatMap_map]
    rfl
  apply readsTables_section [flagText lints.flagPairs]
  · rw [header]
    exact readsLine_table (List.cons_ne_nil _ _)
      (List.forall_mem_singleton.mpr (Toml.ControlFree.keyable (by decide)))
  · refine .cons ?_ .nil
    rw [toList_flagText, ← flags]
    exact readsLine_setting (Toml.ControlFree.keyable (by decide)) (readsItem_rows free)

theorem intercalate_group (separator : String) {front group back : List String}
    (before : front ≠ []) (some : group ≠ []) (after : back ≠ []) :
    separator.intercalate (front ++ (group ++ back)) =
      separator.intercalate (front ++ separator.intercalate group :: back) := by
  rw [String.intercalate_append_of_ne_nil before (List.append_ne_nil_of_left_ne_nil some back),
    String.intercalate_append_of_ne_nil some after,
    String.intercalate_append_of_ne_nil before (List.cons_ne_nil _ _),
    String.intercalate_cons_of_ne_nil after]

def lineTexts (policy : Policy) : List String :=
  ("[alias]" :: policy.aliases.aliases.map aliasLine ++ [""]) ++
    (sourceLines policy.vendor ++
      if policy.lints.flagPairs = [] then []
      else ["[build]", flagText policy.lints.flagPairs, ""])

theorem render_eq (policy : Policy) : render policy = "\n".intercalate (lineTexts policy) := by
  rw [render, lineTexts, flagLines]
  by_cases none : policy.lints.flagPairs = []
  · rw [none]
    simp
  · have declared : ¬ policy.lints.flagPairs.isEmpty = true := by simpa using none
    have before : "[alias]" :: policy.aliases.aliases.map aliasLine ++ [""] ++
        sourceLines policy.vendor ++ ["[build]"] ≠ [] := by simp
    have grouped := intercalate_group "\n" before
      (List.cons_ne_nil "rustflags = [" (policy.lints.flagPairs.map row ++ ["]"]))
      (List.cons_ne_nil "" [])
    rw [if_neg none, if_neg declared]
    simp only [List.append_assoc, List.cons_append, List.nil_append] at grouped ⊢
    exact grouped

theorem controlFree_flag (severity : Severity) : ControlFree severity.flag := by
  cases severity <;> decide

theorem controlFree_of_mem_flagPairs {lints : LintPolicy}
    (free : ∀ rule ∈ lints.rules, ControlFree rule.name) :
    ∀ pair ∈ lints.flagPairs, ControlFree pair.1 ∧ ControlFree pair.2 := by
  intro pair member
  obtain ⟨entry, present, rfl⟩ := List.mem_map.mp member
  obtain ⟨rule, declared, rfl⟩ := LintPolicy.rule_of_mem_effectiveOf present
  exact ⟨controlFree_flag rule.severity, free rule declared⟩

theorem readsTables_lineTexts {policy : Policy} (free : policy.ControlFree) :
    ReadsTables (lineTexts policy) (tables policy) := by
  apply (readsTables_alias free.names free.tokens).append
  apply (readsTables_source free.source free.path).append
  have pairs : policy.lints.flagPairs = [] ↔ policy.lints.effective = [] := List.map_eq_nil_iff
  by_cases none : policy.lints.effective = []
  · rw [if_pos none, if_pos (pairs.mpr none)]
    exact readsTables_nil
  · rw [if_neg none, if_neg (mt pairs.mp none)]
    exact readsTables_build (controlFree_of_mem_flagPairs free.lints)

theorem flat_single (path : List String) (name : String) (item : Item) :
    Document.Flat ⟨path, [([name], item)]⟩ :=
  ⟨List.forall_mem_singleton.mpr ⟨name, rfl⟩, List.nodup_singleton _⟩

theorem flat_aliasTable (aliases : AliasTable) : Document.Flat (aliasTable aliases) := by
  constructor
  · exact List.forall_mem_map.mpr fun entry _ => ⟨entry.name, rfl⟩
  · have single : Function.Injective fun name : String => [name] := List.singleton_injective
    have names := aliases.distinct.map single
    rw [List.map_map] at names
    rw [aliasTable, List.map_map]
    exact names

theorem tables_sublist (policy : Policy) :
    (tables policy).Sublist
      [aliasTable policy.aliases, sourceTable policy.vendor, buildTable policy.lints] := by
  have source : (if policy.vendor.enabled then [sourceTable policy.vendor] else []).Sublist
      [sourceTable policy.vendor] := by
    split
    · exact List.Sublist.refl _
    · exact List.nil_sublist _
  have build : (if policy.lints.effective = [] then [] else [buildTable policy.lints]).Sublist
      [buildTable policy.lints] := by
    split
    · exact List.nil_sublist _
    · exact List.Sublist.refl _
  exact (source.append build).cons_cons _

/-- What holds of each of the three tables holds of those that are there. -/
theorem forall_mem_tables {policy : Policy} {property : Section → Prop}
    (aliases : property (aliasTable policy.aliases))
    (source : property (sourceTable policy.vendor)) (build : property (buildTable policy.lints)) :
    ∀ table ∈ tables policy, property table := by
  have all : ∀ table ∈ [aliasTable policy.aliases, sourceTable policy.vendor,
      buildTable policy.lints], property table :=
    List.forall_mem_cons.mpr ⟨aliases, List.forall_mem_cons.mpr
      ⟨source, List.forall_mem_singleton.mpr build⟩⟩
  intro table member
  exact all table ((tables_sublist policy).subset member)

theorem apart_tables (policy : Policy) : Document.Apart (tables policy) := by
  have heads : ([aliasTable policy.aliases, sourceTable policy.vendor,
      buildTable policy.lints].map Document.head).Nodup := by
    change [some "alias", some "source", some "build"].Nodup
    decide
  constructor
  · exact forall_mem_tables (List.cons_ne_nil _ _) (List.cons_ne_nil _ _) (List.cons_ne_nil _ _)
  · exact ((tables_sublist policy).map Document.head).nodup heads

theorem sound_tables (policy : Policy) : Document.Sound ⟨[], tables policy⟩ := by
  apply (apart_tables policy).sound
  exact forall_mem_tables (flat_aliasTable _) (flat_single _ _ _) (flat_single _ _ _)

/-- What a policy without controls renders is read back as its tables. -/
theorem read_render {policy : Policy} (free : policy.ControlFree) :
    Toml.read (render policy) = some ⟨[], tables policy⟩ := by
  rw [render_eq]
  exact read_intercalate (readsTables_lineTexts free) (Document.flatMap_spaced _)
    (sound_tables policy)

def mirrored : Record :=
  Record.ofFields [
    ("vendor", .ofFields [("enabled", .bool true), ("path", .text "third party"),
      ("source_name", .text "my.mirror")]),
    ("aliases", .ofFields [("b", .text "build"),
      ("all checks", .ofTexts ["check", "--cfg=\x22full\x22"])]),
    ("lints", .list [.text "-D dead_code", .text "-W unused"])]

theorem mirrored_read_render :
    ∃ policy, Policy.load .declared (.map mirrored) = .ok policy ∧ policy.ControlFree ∧
      policy.aliases.names = [Alias.vendoredName, "b", "all checks"] ∧
      Toml.read (render policy) = some ⟨[], tables policy⟩ := by
  obtain ⟨policy, loaded⟩ := exists_of_isOk
    (by decide +kernel : (Policy.load .declared (.map mirrored)).isOk = true)
  have shown : (Policy.load .declared (.map mirrored)).toOption.map
      (fun policy => (decide policy.ControlFree, policy.aliases.names)) =
        some (true, [Alias.vendoredName, "b", "all checks"]) := by decide +kernel
  rw [loaded] at shown
  obtain ⟨free, names⟩ := Prod.mk.inj (Option.some.inj shown)
  exact ⟨policy, loaded, of_decide_eq_true free, names, read_render (of_decide_eq_true free)⟩

end CargoConfig
end BuildRules
