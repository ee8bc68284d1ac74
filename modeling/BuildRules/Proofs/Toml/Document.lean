import BuildRules.Proofs.Toml.Reading
import Mathlib.Data.List.Nodup

namespace BuildRules.Toml

namespace Document

def lines (document : Document) : List Line :=
  document.root.map (fun setting => .setting setting.1 setting.2) ++
    document.sections.flatMap fun table =>
      .table table.path :: table.settings.map fun setting => .setting setting.1 setting.2

theorem ofLines_settings (settings : List (List String × Item)) (rest : List Line) :
    ofLines (settings.map (fun setting => .setting setting.1 setting.2) ++ rest) =
      ⟨settings ++ (ofLines rest).root, (ofLines rest).sections⟩ := by
  induction settings with
  | nil => rfl
  | cons setting settings ih =>
    rw [List.map_cons, List.cons_append, ofLines, ih]
    rfl

theorem ofLines_sections (sections : List Section) :
    ofLines (sections.flatMap fun table =>
      .table table.path :: table.settings.map fun setting => .setting setting.1 setting.2) =
      ⟨[], sections⟩ := by
  induction sections with
  | nil => rfl
  | cons table sections ih =>
    rw [List.flatMap_cons, List.cons_append, ofLines, ofLines_settings, ih, List.append_nil]

theorem ofLines_lines (document : Document) : ofLines document.lines = document := by
  rw [lines, ofLines_settings, ofLines_sections, List.append_nil]

theorem lines_ofLines (found : List Line) : (ofLines found).lines = found := by
  induction found with
  | nil => rfl
  | cons line rest ih =>
    cases line with
    | setting path item => exact congrArg (Line.setting path item :: ·) ih
    | table path => exact congrArg (Line.table path :: ·) ih

def spaced (table : Section) : List (Option Line) :=
  some (.table table.path) ::
    (table.settings.map (fun setting => some (.setting setting.1 setting.2)) ++ [none])

theorem flatMap_spaced (sections : List Section) :
    (sections.flatMap spaced).flatMap Option.toList = lines ⟨[], sections⟩ := by
  have table (one : Section) : (spaced one).flatMap Option.toList =
      .table one.path :: one.settings.map fun setting => .setting setting.1 setting.2 := by
    rw [spaced, List.flatMap_cons, List.flatMap_append, List.flatMap_map]
    change .table one.path :: (one.settings.flatMap (fun setting =>
      [Line.setting setting.1 setting.2]) ++ []) = _
    rw [← List.map_eq_flatMap, List.append_nil]
  rw [List.flatMap_assoc]
  simp only [table]
  rfl

/-- Keys of one name, each once. -/
structure Flat (table : Section) : Prop where
  keys : ∀ setting ∈ table.settings, ∃ name, setting.1 = [name]
  distinct : (table.settings.map Prod.fst).Nodup

def head (table : Section) : Option String := table.path.head?

theorem mem_settingPaths_iff {sections : List Section} {path : List String} :
    path ∈ settingPaths ⟨[], sections⟩ ↔
      ∃ table ∈ sections, ∃ setting ∈ table.settings, table.path ++ setting.1 = path := by
  simp only [settingPaths, List.map_nil, List.nil_append, List.mem_flatMap, List.mem_map]

/-- Tables that each begin with a name of their own. -/
structure Apart (sections : List Section) : Prop where
  opened : ∀ table ∈ sections, table.path ≠ []
  heads : (sections.map head).Nodup

namespace Apart

variable {sections : List Section} (apart : Apart sections)

include apart

theorem eq_of_begins {table other : Section} (first : table ∈ sections)
    (second : other ∈ sections) {tail rest : List String}
    (begins : table.path ++ tail <+: other.path ++ rest) : table = other := by
  apply List.inj_on_of_nodup_map apart.heads first second
  obtain ⟨name, path, opened⟩ := List.exists_cons_of_ne_nil (apart.opened table first)
  obtain ⟨otherName, otherPath, otherOpened⟩ :=
    List.exists_cons_of_ne_nil (apart.opened other second)
  rw [opened, otherOpened] at begins
  rw [head, head, opened, otherOpened, List.head?_cons, List.head?_cons,
    (List.cons_prefix_cons.mp begins).1]

theorem nodup_headers : (headers ⟨[], sections⟩).Nodup := by
  have heads := apart.heads
  have byPath : sections.map head = (sections.map Section.path).map List.head? := by
    rw [List.map_map]
    rfl
  rw [byPath] at heads
  exact List.Nodup.of_map _ heads

theorem nodup_settingPaths (flat : ∀ table ∈ sections, Flat table) :
    (settingPaths ⟨[], sections⟩).Nodup := by
  rw [settingPaths, List.map_nil, List.nil_append, List.nodup_flatMap]
  constructor
  · intro table member
    have keys := (flat table member).distinct.map
      (List.append_right_injective table.path)
    rwa [List.map_map] at keys
  · refine (List.pairwise_map.mp apart.heads).imp_of_mem ?_
    intro table other first second different path left right
    obtain ⟨setting, -, rfl⟩ := List.mem_map.mp left
    obtain ⟨otherSetting, -, same⟩ := List.mem_map.mp right
    have begins : table.path ++ setting.1 <+: other.path ++ otherSetting.1 :=
      ⟨[], by rw [List.append_nil, same]⟩
    exact different (congrArg head (apart.eq_of_begins first second begins))

/-- Flat tables that are apart make a sound document. -/
theorem sound (flat : ∀ table ∈ sections, Flat table) : Sound ⟨[], sections⟩ := by
  refine ⟨apart.nodup_headers, apart.nodup_settingPaths flat, ?_, ?_, ?_⟩
  · intro path member other present begins
    obtain ⟨table, first, setting, key, rfl⟩ := mem_settingPaths_iff.mp member
    obtain ⟨otherTable, second, otherSetting, otherKey, rfl⟩ := mem_settingPaths_iff.mp present
    obtain rfl := apart.eq_of_begins first second begins
    obtain ⟨name, single⟩ := (flat table first).keys setting key
    obtain ⟨otherName, otherSingle⟩ := (flat table first).keys otherSetting otherKey
    apply begins.eq_of_length
    simp [single, otherSingle]
  · intro path member header present begins
    obtain ⟨table, first, setting, key, rfl⟩ := mem_settingPaths_iff.mp member
    obtain ⟨other, second, rfl⟩ := List.mem_map.mp present
    rw [← List.append_nil other.path] at begins
    obtain rfl := apart.eq_of_begins first second begins
    obtain ⟨name, single⟩ := (flat table first).keys setting key
    have longer := begins.length_le
    rw [single, List.length_append, List.length_append] at longer
    exact absurd longer (Nat.not_succ_le_self _)
  · intro table member
    exfalso
    simp only [dottedTables, List.flatMap_nil, List.nil_append, List.mem_flatMap] at member
    obtain ⟨within, first, setting, key, inner⟩ := member
    obtain ⟨name, single⟩ := (flat within first).keys setting key
    simp [single, innerTables] at inner

end Apart
end Document

def Document.single (path : List String) (item : Item) : Document := ⟨[(path, item)], []⟩

theorem Document.sound_single (path : List String) (item : Item) : (single path item).Sound := by
  simp [single, Sound, headers, settingPaths]

theorem read_eq_single_iff {text : String} {path : List String} {item : Item} :
    read text = some (.single path item) ↔
      lines? (text.toList.length + 1) text.toList = some [.setting path item] := by
  rw [read]
  constructor
  · intro found
    obtain ⟨lines, listed, found⟩ := Option.bind_eq_some_iff.mp found
    dsimp only at found
    split at found
    next =>
      have whole := Document.lines_ofLines lines
      rw [Option.some.inj found] at whole
      rw [listed, ← whole]
      rfl
    next => cases found
  · intro listed
    rw [listed]
    exact if_pos (Document.sound_single path item)

/-- A text whose lines are those of a sound document is read as the document. -/
theorem read_intercalate {texts : List String} {founds : List (Option Line)}
    (reads : List.Forall₂ ReadsLine (texts.map String.toList) founds) {document : Document}
    (found : founds.flatMap Option.toList = document.lines) (sound : document.Sound) :
    read ("\n".intercalate texts) = some document := by
  have whole : ("\n".intercalate texts).toList = ['\n'].intercalate (texts.map String.toList) :=
    String.toList_intercalate
  have room := length_le_intercalate (List.cons_ne_nil '\n' []) (texts.map String.toList)
  rw [read, whole, lines?_intercalate reads room, found]
  change (if (Document.ofLines document.lines).Sound then some (Document.ofLines document.lines)
    else none) = _
  rw [Document.ofLines_lines, if_pos sound]

/-- A text of one line is the document of the line. -/
theorem read_of_readsLine {text : String} {line : Line} (reads : ReadsLine text.toList (some line))
    (sound : (Document.ofLines [line]).Sound) : read text = some (.ofLines [line]) := by
  have lines : List.Forall₂ ReadsLine ([text].map String.toList) [some line] := .cons reads .nil
  have whole := read_intercalate lines (Document.lines_ofLines [line]).symm sound
  rwa [String.intercalate_singleton] at whole

/-- A path, an equals sign and a value are the document of one setting. -/
theorem read_of_setting {text : String} {path : List String} (nonempty : path ≠ [])
    (named : ∀ name ∈ path, Nameable name) {chars : List Char} {item : Item}
    (shape : text.toList = pathChars path ++ ' ' :: '=' :: ' ' :: chars)
    (reads : ReadsItem chars item) : read text = some (.single path item) := by
  have line : ReadsLine text.toList (some (.setting path item)) := by
    rw [shape]
    exact readsLine_path nonempty (fun name member => (named name member).keyable) reads
  exact read_of_readsLine line (Document.sound_single path item)

end BuildRules.Toml
