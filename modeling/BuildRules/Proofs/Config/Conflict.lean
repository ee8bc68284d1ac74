import BuildRules.Proofs.Config.Layers
import BuildRules.Proofs.Config.Raised
import BuildRules.Proofs.First

/-! A layer laid over a base, seen at each key path. The overlay fails exactly where some path has
a clash, and names the first of these; else every map of both sides is joined entry by entry. -/
namespace BuildRules

namespace Value

/-- The value at a key path. -/
def at? : Value → List Scalar → Option Value
  | value, [] => some value
  | .map entries, key :: path => (Entries.find? entries key).bind (at? · path)
  | _, _ :: _ => none

mutual

/-- Key paths of a value in depth-first order, each before those that go on from it. -/
def paths : Value → List (List Scalar)
  | .scalar _ => [[]]
  | .list _ => [[]]
  | .map entries => [] :: entryPaths entries

def entryPaths : List (Scalar × Value) → List (List Scalar)
  | [] => []
  | (key, value) :: rest => (paths value).map (key :: ·) ++ entryPaths rest

end

theorem entryPaths_eq (entries : Record) :
    entryPaths entries = entries.flatMap fun entry => (paths entry.2).map (entry.1 :: ·) := by
  induction entries with
  | nil => rw [entryPaths, List.flatMap_nil]
  | cons entry rest ih => rw [entryPaths, ih, List.flatMap_cons]

theorem nil_mem_paths (value : Value) : [] ∈ paths value := by
  cases value <;> simp [paths]

theorem at?_eq_some_cons {value result : Value} {key : Scalar} {path : List Scalar} :
    at? value (key :: path) = some result ↔ ∃ entries held, value = .map entries ∧
      Entries.find? entries key = some held ∧ at? held path = some result := by
  cases value <;> simp [at?, Option.bind_eq_some_iff]

end Value

namespace Config

open Value Entries

/-- The layer's value is no list, the two are not both maps, and their kinds differ. -/
structure Clash (base layer : Value) : Prop where
  notList : layer.kind ≠ .list
  notMaps : ¬ (base.kind = .map ∧ layer.kind = .map)
  kinds : base.kind ≠ layer.kind

/-- Both sides have a value at the path, and these clash. -/
def ClashAt (base layer : Value) (path : List Scalar) : Prop :=
  ∃ old new, at? base path = some old ∧ at? layer path = some new ∧ Clash old new

section Clashes

variable {base layer : Record} {old new : Value} {key : Scalar} {path : List Scalar}

theorem clashAt_nil : ClashAt old new [] ↔ Clash old new := by
  simp [ClashAt, at?]

theorem clashAt_cons : ClashAt (.map base) (.map layer) (key :: path) ↔
    ∃ old new, find? base key = some old ∧ find? layer key = some new ∧ ClashAt old new path := by
  constructor
  · rintro ⟨old, new, left, right, clash⟩
    obtain ⟨_, lower, same, below, left⟩ := at?_eq_some_cons.mp left
    cases same
    obtain ⟨_, upper, same, above, right⟩ := at?_eq_some_cons.mp right
    cases same
    exact ⟨lower, upper, below, above, old, new, left, right, clash⟩
  · rintro ⟨lower, upper, below, above, old, new, left, right, clash⟩
    exact ⟨old, new, at?_eq_some_cons.mpr ⟨base, lower, rfl, below, left⟩,
      at?_eq_some_cons.mpr ⟨layer, upper, rfl, above, right⟩, clash⟩

theorem maps_of_clashAt (clash : ClashAt old new (key :: path)) :
    ∃ base layer, old = .map base ∧ new = .map layer := by
  obtain ⟨_, _, left, right, -⟩ := clash
  obtain ⟨base, -, same, -⟩ := at?_eq_some_cons.mp left
  obtain ⟨layer, -, other, -⟩ := at?_eq_some_cons.mp right
  exact ⟨base, layer, same, other⟩

/-- A clash under other spellings of the keys is one under those of the layer. -/
theorem exists_path_of_clashAt (clash : ClashAt old new path) :
    ∃ spelled ∈ paths new, ClashAt old new spelled := by
  induction path generalizing old new with
  | nil => exact ⟨[], nil_mem_paths new, clash⟩
  | cons key path ih =>
    obtain ⟨base, layer, rfl, rfl⟩ := maps_of_clashAt clash
    obtain ⟨lower, upper, below, above, deeper⟩ := clashAt_cons.mp clash
    obtain ⟨candidate, member, same⟩ := exists_of_find? above
    obtain ⟨spelled, listed, clashes⟩ := ih deeper
    refine ⟨candidate :: spelled, ?_, ?_⟩
    · rw [paths, entryPaths_eq]
      exact List.mem_cons_of_mem _ (List.mem_flatMap.mpr
        ⟨(candidate, upper), member, List.mem_map_of_mem listed⟩)
    · rw [clashAt_cons, find?_congr same, find?_congr same]
      exact ⟨lower, upper, below, above, clashes⟩

end Clashes

theorem kind_eq_map_iff {value : Value} : value.kind = .map ↔ ∃ entries, value = .map entries := by
  cases value with
  | scalar leaf => cases leaf <;> simp [Value.kind, Scalar.kind]
  | list items => simp [Value.kind]
  | map entries => simp [Value.kind]

theorem kind_scalar_ne_list (leaf : Scalar) : (Value.scalar leaf).kind ≠ .list := by
  cases leaf <;> simp [Value.kind, Scalar.kind]

/-- Values that are not both maps: the layer's value counts as a whole, or not at all. -/
theorem overlayValue_of_not_maps {base layer : Value} (key : Scalar)
    (notMaps : ¬ (base.kind = .map ∧ layer.kind = .map)) :
    overlayValue key base layer =
      if layer.kind = .list ∨ base.kind = layer.kind then .ok layer
      else .error (.raised (.mergeConflict key base.kind layer.kind)) := by
  cases layer with
  | scalar leaf =>
    have leafKind := kind_scalar_ne_list leaf
    rw [overlayValue]
    simp only [leafKind, false_or]
    rfl
  | list items => simp [overlayValue_list, Value.kind]
  | map upper =>
    have notMap : base.kind ≠ .map := fun map => notMaps ⟨map, rfl⟩
    cases base with
    | scalar leaf => simp [overlayValue, Value.kind, show leaf.kind ≠ .map from notMap]
    | list items => simp [overlayValue, Value.kind]
    | map lower => exact absurd rfl notMap

section Faults

variable {base layer other rest : Record} {key : Scalar} {value : Value} {error : PolicyError}

theorem find?_insert_of_apart {name : Scalar} (apart : Key.same key name = false) :
    find? (Entries.insert base key value) name = find? base name := by
  induction base with
  | nil => simp [Entries.insert, find?, apart]
  | cons entry rest ih =>
    obtain ⟨candidate, old⟩ := entry
    rw [Entries.insert]
    split
    next same =>
      have further : Key.same candidate name = false := by
        rw [← apart, Scalar.same_comm candidate, Scalar.same_congr same, Scalar.same_comm]
      rw [find?, find?, if_neg (by simp [further]), if_neg (by simp [further])]
    next => rw [find?, find?, ih]

theorem overlayValue_eq_error {base layer : Value} : overlayValue key base layer = .error error ↔
    (Clash base layer ∧ error = .raised (.mergeConflict key base.kind layer.kind)) ∨
      ∃ lower upper, base = .map lower ∧ layer = .map upper ∧
        overlayEntries lower upper = .error error := by
  by_cases maps : base.kind = .map ∧ layer.kind = .map
  · obtain ⟨lower, rfl⟩ := kind_eq_map_iff.mp maps.1
    obtain ⟨upper, rfl⟩ := kind_eq_map_iff.mp maps.2
    have agree : ¬ Clash (.map lower) (.map upper) := fun clash => clash.notMaps maps
    simp [overlayValue, bind_eq_error, agree]
  · have apart : ¬ ∃ lower upper, base = .map lower ∧ layer = .map upper ∧
        overlayEntries lower upper = .error error := by
      rintro ⟨lower, upper, rfl, rfl, -⟩
      exact maps ⟨rfl, rfl⟩
    rw [overlayValue_of_not_maps key maps, or_iff_left apart]
    split
    next replaced =>
      have agree : ¬ Clash base layer := fun clash => replaced.elim clash.notList clash.kinds
      simp [agree]
    next refused =>
      obtain ⟨notList, kinds⟩ := not_or.mp refused
      have clash : Clash base layer := ⟨notList, maps, kinds⟩
      simp [clash, eq_comm]

/-- An entry of the layer that cannot be laid over what the base has under its key. -/
def Fails (base : Record) (entry : Scalar × Value) (error : PolicyError) : Prop :=
  ∃ old, find? base entry.1 = some old ∧ overlayValue entry.1 old entry.2 = .error error

/-- The first entry of the layer that fails, and its error. -/
def FailsFirst (base layer : Record) (error : PolicyError) : Prop :=
  ∃ entry, First (fun entry => ∃ error, Fails base entry error) layer entry ∧
    Fails base entry error

theorem failsFirst_cons {entry : Scalar × Value} :
    FailsFirst base (entry :: rest) error ↔
      Fails base entry error ∨
        ((∀ error, ¬ Fails base entry error) ∧ FailsFirst base rest error) := by
  simp only [FailsFirst, first_cons_iff]
  constructor
  · rintro ⟨found, ⟨-, rfl⟩ | ⟨passes, first⟩, fails⟩
    · exact .inl fails
    · exact .inr ⟨not_exists.mp passes, found, first, fails⟩
  · rintro (fails | ⟨passes, found, first, fails⟩)
    · exact ⟨entry, .inl ⟨⟨error, fails⟩, rfl⟩, fails⟩
    · exact ⟨found, .inr ⟨not_exists.mpr passes, first⟩, fails⟩

theorem failsFirst_congr
    (same : ∀ entry ∈ layer, find? base entry.1 = find? other entry.1) :
    FailsFirst base layer error ↔ FailsFirst other layer error := by
  induction layer with
  | nil =>
    have none (base : Record) : ¬ FailsFirst base [] error := fun ⟨_, first, _⟩ => by cases first
    simp [none]
  | cons entry layer ih =>
    obtain ⟨head, later⟩ := List.forall_mem_cons.mp same
    simp only [failsFirst_cons, Fails, head, ih later]

/-- Entries that are laid before do not matter to those that follow, since no key is repeated. -/
theorem overlayEntries_eq_error (layerApart : Apart layer) :
    overlayEntries base layer = .error error ↔ FailsFirst base layer error := by
  induction layer generalizing base with
  | nil =>
    constructor
    · intro failed
      rw [overlayEntries] at failed
      cases failed
    · rintro ⟨_, first, -⟩
      cases first
  | cons entry rest ih =>
    obtain ⟨key, value⟩ := entry
    obtain ⟨first, restApart⟩ := List.pairwise_cons.mp layerApart
    have unchanged (held : Value) : overlayEntries (Entries.insert base key held) rest = .error error ↔
        FailsFirst base rest error :=
      (ih restApart).trans (failsFirst_congr fun entry member =>
        find?_insert_of_apart (first entry member))
    rw [overlayEntries, failsFirst_cons]
    split
    next absent => simp [Fails, absent, unchanged]
    next old present =>
      simp only [Fails, present, Option.some.injEq, exists_eq_left']
      rw [bind_eq_error]
      cases laid : overlayValue key old value with
      | error fault => simp
      | ok merged => simp [unchanged]

end Faults

/-- The error of the first path with a clash. It names the last key of the path, or the given key
for the value as a whole. -/
def Blames (key : Scalar) (base layer : Value) (error : PolicyError) : Prop :=
  ∃ path, First (ClashAt base layer) (paths layer) path ∧
    ∃ old new, at? base path = some old ∧ at? layer path = some new ∧
      error = .raised (.mergeConflict (path.getLast?.getD key) old.kind new.kind)

section Blame

variable {base layer : Record} {old new : Value} {key : Scalar} {path : List Scalar}
  {entry : Scalar × Value} {error : PolicyError}

theorem exists_blames_iff : (∃ error, Blames key old new error) ↔ ∃ path, ClashAt old new path := by
  constructor
  · rintro ⟨_, path, first, -⟩
    exact ⟨path, first.hit⟩
  · rintro ⟨_, clash⟩
    obtain ⟨path, first⟩ := exists_first (exists_path_of_clashAt clash)
    obtain ⟨lower, upper, left, right, -⟩ := first.hit
    exact ⟨_, path, first, lower, upper, left, right, rfl⟩

theorem blames_of_clash (clash : Clash old new) :
    Blames key old new error ↔ error = .raised (.mergeConflict key old.kind new.kind) := by
  have only : ∀ path, First (ClashAt old new) (paths new) path ↔ path = [] := by
    intro path
    have split : ∃ rest, paths new = [] :: rest := by
      cases new <;> exact ⟨_, by rw [paths]⟩
    obtain ⟨rest, shape⟩ := split
    simp [shape, first_cons_iff, clashAt_nil, clash]
  simp [Blames, only, at?]

theorem clashAt_entry (apart : Apart layer) (member : entry ∈ layer) :
    ClashAt (.map base) (.map layer) (entry.1 :: path) ↔
      ∃ old, find? base entry.1 = some old ∧ ClashAt old entry.2 path := by
  rw [clashAt_cons]
  constructor
  · rintro ⟨lower, upper, below, above, clash⟩
    have here := find?_of_mem apart member (Scalar.same_refl _)
    rw [here] at above
    cases above
    exact ⟨lower, below, clash⟩
  · rintro ⟨lower, below, clash⟩
    exact ⟨lower, entry.2, below, find?_of_mem apart member (Scalar.same_refl _), clash⟩

/-- What is to blame in one entry is so along the paths through it. -/
theorem blames_entry (apart : Apart layer) (member : entry ∈ layer)
    (below : find? base entry.1 = some old) :
    Blames entry.1 old entry.2 error ↔
      ∃ path, First (ClashAt (.map base) (.map layer)) ((paths entry.2).map (entry.1 :: ·)) path ∧
        ∃ lower upper, at? (.map base) path = some lower ∧ at? (.map layer) path = some upper ∧
          error = .raised (.mergeConflict (path.getLast?.getD key) lower.kind upper.kind) := by
  have above := find?_of_mem apart member (Scalar.same_refl _)
  have same : ∀ path ∈ paths entry.2,
      ClashAt (.map base) (.map layer) (entry.1 :: path) ↔ ClashAt old entry.2 path := by
    intro path _
    simp [clashAt_entry apart member, below]
  simp only [Blames, first_map, first_congr same]
  constructor
  · rintro ⟨path, first, lower, upper, left, right, named⟩
    refine ⟨entry.1 :: path, ⟨path, first, rfl⟩, lower, upper, ?_, ?_, ?_⟩
    · simpa [at?, below] using left
    · simpa [at?, above] using right
    · simpa [List.getLast?_cons] using named
  · rintro ⟨_, ⟨path, first, rfl⟩, lower, upper, left, right, named⟩
    refine ⟨path, first, lower, upper, ?_, ?_, ?_⟩
    · simpa [at?, below] using left
    · simpa [at?, above] using right
    · simpa [List.getLast?_cons] using named

theorem exists_path_through (apart : Apart layer) (member : entry ∈ layer) :
    (∃ path ∈ (paths entry.2).map (entry.1 :: ·), ClashAt (.map base) (.map layer) path) ↔
      ∃ error old, find? base entry.1 = some old ∧ Blames entry.1 old entry.2 error := by
  constructor
  · rintro ⟨_, listed, clash⟩
    obtain ⟨path, -, rfl⟩ := List.mem_map.mp listed
    obtain ⟨old, below, deeper⟩ := (clashAt_entry apart member).mp clash
    obtain ⟨error, blames⟩ := exists_blames_iff.mpr ⟨path, deeper⟩
    exact ⟨error, old, below, blames⟩
  · rintro ⟨error, old, below, blames⟩
    obtain ⟨path, first, -⟩ := blames
    exact ⟨entry.1 :: path, List.mem_map_of_mem first.mem,
      (clashAt_entry apart member).mpr ⟨old, below, first.hit⟩⟩

/-- Between maps the first clash is the first one of the first entry that has one. -/
theorem blames_maps (apart : Apart layer) :
    Blames key (.map base) (.map layer) error ↔
      ∃ entry, First (fun entry => ∃ error old, find? base entry.1 = some old ∧
          Blames entry.1 old entry.2 error) layer entry ∧
        ∃ old, find? base entry.1 = some old ∧ Blames entry.1 old entry.2 error := by
  have agree : ¬ ClashAt (.map base) (.map layer) [] :=
    fun clash => (clashAt_nil.mp clash).notMaps ⟨rfl, rfl⟩
  have same : ∀ entry ∈ layer,
      (∃ path ∈ (paths entry.2).map (entry.1 :: ·), ClashAt (.map base) (.map layer) path) ↔ _ :=
    fun entry member => exists_path_through apart member
  rw [Blames, paths, entryPaths_eq]
  simp only [first_cons_iff, agree, false_and, false_or, not_false_eq_true, true_and,
    first_flatMap, first_congr same]
  constructor
  · rintro ⟨path, ⟨entry, first, inside⟩, named⟩
    obtain ⟨_, old, below, -⟩ := first.hit
    exact ⟨entry, first, old, below, (blames_entry apart first.mem below).mpr ⟨path, inside, named⟩⟩
  · rintro ⟨entry, first, old, below, blames⟩
    obtain ⟨path, inside, named⟩ := (blames_entry apart first.mem below).mp blames
    exact ⟨path, ⟨entry, first, inside⟩, named⟩

theorem not_blames_of_leaf (agree : ¬ Clash old new) (leaf : paths new = [[]]) :
    ¬ Blames key old new error := by
  rintro ⟨path, first, -⟩
  have member := first.mem
  rw [leaf, List.mem_singleton] at member
  subst member
  exact agree (clashAt_nil.mp first.hit)

/-- The recursion of the overlay meets the first clash of the layer first. -/
theorem overlayValue_eq_error_iff (keyed : Keyed new) :
    overlayValue key old new = .error error ↔ Blames key old new error := by
  induction new using byParts generalizing key old error with
  | scalar leaf =>
    rw [overlayValue_eq_error]
    by_cases clash : Clash old (.scalar leaf)
    · simp [clash, blames_of_clash clash]
    · simp [clash, not_blames_of_leaf clash (paths.eq_1 leaf)]
  | list items =>
    rw [overlayValue_eq_error]
    by_cases clash : Clash old (.list items)
    · exact absurd rfl clash.notList
    · simp [clash, not_blames_of_leaf clash (paths.eq_2 items)]
  | map layer ih =>
    obtain ⟨apart, parts⟩ := keyed.entries
    rw [overlayValue_eq_error]
    by_cases map : old.kind = .map
    · obtain ⟨base, rfl⟩ := kind_eq_map_iff.mp map
      have agree : ¬ Clash (.map base) (.map layer) := fun clash => clash.notMaps ⟨rfl, rfl⟩
      -- which entry fails first is not changed by telling of each, by induction, how it fails
      have each : ∀ entry ∈ layer, ∀ error, Fails base entry error ↔
          ∃ old, find? base entry.1 = some old ∧ Blames entry.1 old entry.2 error :=
        fun entry member _ => exists_congr fun _ => and_congr_right fun _ =>
          ih entry member (parts entry member)
      have first (entry : Scalar × Value) :
          First (fun entry => ∃ error, Fails base entry error) layer entry ↔ _ :=
        first_congr fun entry member => exists_congr (each entry member)
      simp only [agree, false_and, false_or, Value.map.injEq, exists_and_left, exists_eq_left']
      rw [overlayEntries_eq_error apart, blames_maps apart, FailsFirst]
      simp only [first]
      exact exists_congr fun entry => and_congr_right fun here => each entry here.mem error
    · have clash : Clash old (.map layer) :=
        ⟨by simp [Value.kind], fun maps => map maps.1, map⟩
      have apart : ¬ ∃ lower upper, old = .map lower ∧ Value.map layer = .map upper ∧
          overlayEntries lower upper = .error error := by
        rintro ⟨lower, -, rfl, -⟩
        exact map rfl
      rw [or_iff_left apart, blames_of_clash clash]
      simp [clash]

end Blame

/-- What is left of a value, by what the layer has under its key: the value itself, a map that is
joined in turn, or the value of the layer as a whole. -/
inductive Settles : Option Value → Value → Value → Prop where
  | kept (old : Value) : Settles none old old
  | joined (base layer result : Record) : Settles (some (.map layer)) (.map base) (.map result)
  | replaced {old new : Value} (notMaps : ¬ (old.kind = .map ∧ new.kind = .map)) :
      Settles (some new) old new

/-- The entries of the base in their order, each with what is left of it, and after them those that
only the layer has, in the order of the layer. -/
def Joined (base layer result : Record) : Prop :=
  ∃ kept, List.Forall₂ (fun entry left =>
      left.1 = entry.1 ∧ Settles (find? layer entry.1) entry.2 left.2) base kept ∧
    result = kept ++ added base layer

section Joining

variable {base layer result : Record} {key : Scalar} {old new value : Value} {path : List Scalar}

theorem settles_of_overlayValue (laid : overlayValue key old new = .ok value) :
    Settles (some new) old value := by
  by_cases maps : old.kind = .map ∧ new.kind = .map
  · obtain ⟨base, rfl⟩ := kind_eq_map_iff.mp maps.1
    obtain ⟨layer, rfl⟩ := kind_eq_map_iff.mp maps.2
    obtain ⟨_, merged, _, rfl, _⟩ := overlayValue_map_eq_ok.mp laid
    exact .joined base layer merged
  · rw [overlayValue_of_not_maps key maps] at laid
    split at laid
    next =>
      cases laid
      exact .replaced maps
    next => cases laid

theorem Overlaid.joined (overlaid : Overlaid base layer result) : Joined base layer result := by
  obtain ⟨kept, parts, rfl⟩ := overlaid
  refine ⟨kept, parts.imp ?_, rfl⟩
  rintro entry left ⟨same, held⟩
  refine ⟨same, ?_⟩
  cases found : find? layer entry.1 with
  | none =>
    have unchanged : left.2 = entry.2 := by simpa [KeptAt, found] using held
    exact unchanged ▸ .kept entry.2
  | some value => exact settles_of_overlayValue (by simpa [KeptAt, found] using held)

theorem joined_at (baseKeyed : Keyed old) (layerKeyed : Keyed new)
    (laid : overlayValue key old new = .ok value) (left : at? old path = some (.map base))
    (right : at? new path = some (.map layer)) :
    ∃ joined, at? value path = some (.map joined) ∧ Joined base layer joined := by
  induction path generalizing key old new value with
  | nil =>
    cases left
    cases right
    obtain ⟨_, merged, same, rfl, merges⟩ := overlayValue_map_eq_ok.mp laid
    cases same
    have overlaid := (overlayEntries_eq_ok baseKeyed.entries.1 layerKeyed.entries.1).mp merges
    exact ⟨merged, rfl, overlaid.joined⟩
  | cons name path ih =>
    obtain ⟨lower, under, rfl, below, left⟩ := at?_eq_some_cons.mp left
    obtain ⟨upper, atop, rfl, above, right⟩ := at?_eq_some_cons.mp right
    obtain ⟨_, merged, same, rfl, merges⟩ := overlayValue_map_eq_ok.mp laid
    cases same
    have overlaid := (overlayEntries_eq_ok baseKeyed.entries.1 layerKeyed.entries.1).mp merges
    obtain ⟨kept, parts, rfl⟩ := overlaid
    obtain ⟨part, found, held⟩ := find?_kept_present parts below
    have inner : overlayValue name under atop = .ok part := by simpa [KeptAt, above] using held
    obtain ⟨joined, there, shape⟩ :=
      ih (baseKeyed.of_find? below) (layerKeyed.of_find? above) inner left right
    refine ⟨joined, at?_eq_some_cons.mpr ⟨_, part, rfl, ?_, there⟩, shape⟩
    rw [find?_append, found, Option.some_or]

/-- What is told of a conflict at a key. It cannot be told of an integer that has no text. -/
inductive Tells (key : Scalar) (base layer : Kind) : PolicyError → Prop where
  | conflict {text : String} (shown : key.display = .ok text) :
      Tells key base layer (.config (.mergeConflict key base layer))
  | unnamed {number : Int} (same : key = .int number) (long : Number.isShort number = false) :
      Tells key base layer (.shape .integerTooLong)

theorem tells_iff {error : PolicyError} {lower upper : Kind} :
    Tells key lower upper error ↔ error = .raised (.mergeConflict key lower upper) := by
  cases shown : key.display with
  | ok text =>
    have raised : PolicyError.raised (.mergeConflict key lower upper) =
        .config (.mergeConflict key lower upper) := by
      rw [PolicyError.raised, ConfigError.message, shown]
      rfl
    rw [raised]
    constructor
    · rintro (_ | ⟨rfl, long⟩)
      · rfl
      · rw [Scalar.display_int, Number.display, long] at shown
        cases shown
    · rintro rfl
      exact .conflict shown
  | error fault =>
    obtain ⟨rfl, number, rfl, long⟩ := Scalar.quoted_eq_error (Scalar.display_eq_error shown)
    have raised : PolicyError.raised (.mergeConflict (.int number) lower upper) =
        .shape .integerTooLong := by
      rw [PolicyError.raised, ConfigError.message, shown]
      rfl
    rw [raised]
    constructor
    · rintro (⟨displayed⟩ | _)
      · rw [displayed] at shown
        cases shown
      · rfl
    · rintro rfl
      exact .unnamed rfl long

/-- A layer cannot be laid over a base exactly where the two clash at some path. The conflict names
the first such path of the layer, by its last key, if that has a text. Else the maps that both have
at a path are joined there, and nothing comes in but from the base or the layer. -/
theorem overlay_by_paths (baseKeyed : Keyed (.map base)) (layerKeyed : Keyed (.map layer)) :
    ((∃ error, overlay (.map base) (.map layer) = .error error) ↔
      ∃ path, ClashAt (.map base) (.map layer) path) ∧
    (∀ error, overlay (.map base) (.map layer) = .error error ↔
      ∃ path key old new, First (ClashAt (.map base) (.map layer)) (paths (.map layer)) path ∧
        path.getLast? = some key ∧ at? (.map base) path = some old ∧
        at? (.map layer) path = some new ∧ Tells key old.kind new.kind error) ∧
    ∀ result, overlay (.map base) (.map layer) = .ok result → ∀ path lower upper,
      at? (.map base) path = some (.map lower) → at? (.map layer) path = some (.map upper) →
      ∃ joined, at? result path = some (.map joined) ∧ Joined lower upper joined := by
  have fails (error : PolicyError) : overlay (.map base) (.map layer) = .error error ↔
      Blames .null (.map base) (.map layer) error := by
    rw [overlay_maps .null, overlayValue_eq_error_iff layerKeyed]
  refine ⟨?_, ?_, ?_⟩
  · rw [exists_congr fails, exists_blames_iff]
  · intro error
    rw [fails]
    constructor
    · rintro ⟨path, first, old, new, left, right, named⟩
      have nonempty : path ≠ [] := by
        rintro rfl
        exact (clashAt_nil.mp first.hit).notMaps ⟨rfl, rfl⟩
      have last := List.getLast?_eq_some_getLast nonempty
      rw [last, Option.getD_some] at named
      exact ⟨path, path.getLast nonempty, old, new, first, last, left, right, tells_iff.mpr named⟩
    · rintro ⟨path, key, old, new, first, last, left, right, told⟩
      refine ⟨path, first, old, new, left, right, ?_⟩
      rw [last, Option.getD_some, tells_iff.mp told]
  · intro result laid path lower upper left right
    rw [overlay_maps .null] at laid
    exact joined_at baseKeyed layerKeyed laid left right

end Joining

def pinned : Record :=
  Record.ofFields [("toolchain", .text "stable"),
    ("vendor", .ofFields [("enabled", .bool true), ("requires", .ofTexts ["serde"])])]

def loose : Record :=
  Record.ofFields [("vendor", .ofFields [("requires", .ofTexts []), ("enabled", .int 1)]),
    ("toolchain", .null)]

def emptied : Record :=
  Record.ofFields [("vendor", .ofFields [("path", .text "third_party"), ("requires", .ofTexts [])]),
    ("lints", .ofTexts [])]

theorem layers_over_pinned_by_paths :
    Keyed (.map pinned) ∧ Keyed (.map loose) ∧ Keyed (.map emptied) ∧
    (∃ path key old new, First (ClashAt (.map pinned) (.map loose)) (paths (.map loose)) path ∧
      path.getLast? = some key ∧ at? (.map pinned) path = some old ∧
      at? (.map loose) path = some new ∧
      Tells key old.kind new.kind (.config (.mergeConflict (.text "enabled") .bool .int))) ∧
    ∃ result joined, overlay (.map pinned) (.map emptied) = .ok result ∧
      at? result [.text "vendor"] = some (.map joined) ∧
      Joined (Record.ofFields [("enabled", .bool true), ("requires", .ofTexts ["serde"])])
        (Record.ofFields [("path", .text "third_party"), ("requires", .ofTexts [])]) joined := by
  have pinnedKeyed : Keyed (.map pinned) := by
    apply Plain.keyed
    apply plain_ofFields (by decide)
    simp only [List.forall_mem_cons, Plain.scalar, true_and]
    exact ⟨plain_ofFields (by decide) (by simp [Plain.scalar, plain_ofTexts]), by simp⟩
  have looseKeyed : Keyed (.map loose) := by
    apply Plain.keyed
    apply plain_ofFields (by decide)
    simp only [List.forall_mem_cons, Plain.scalar, true_and]
    exact ⟨plain_ofFields (by decide) (by simp [Plain.scalar, plain_ofTexts]), by simp⟩
  have emptiedKeyed : Keyed (.map emptied) := by
    apply Plain.keyed
    apply plain_ofFields (by decide)
    simp only [List.forall_mem_cons, plain_ofTexts, true_and]
    exact ⟨plain_ofFields (by decide) (by simp [Plain.scalar, plain_ofTexts]), by simp⟩
  obtain ⟨-, failing, -⟩ := overlay_by_paths pinnedKeyed looseKeyed
  obtain ⟨-, -, joining⟩ := overlay_by_paths pinnedKeyed emptiedKeyed
  have failed : overlay (.map pinned) (.map loose) =
      .error (.config (.mergeConflict (.text "enabled") .bool .int)) := rfl
  obtain ⟨joined, there, shape⟩ := joining _ rfl [.text "vendor"] _ _ rfl rfl
  exact ⟨pinnedKeyed, looseKeyed, emptiedKeyed, (failing _).mp failed, _, joined, rfl, there, shape⟩

/-- A clash at an integer that has no text is no conflict of types to whoever meets it. -/
theorem clash_at_overlong_unnamed :
    First (ClashAt (.map [(.int Number.overlong, .bool true)])
        (.map [(.int Number.overlong, .int 1)])) (paths (.map [(.int Number.overlong, .int 1)]))
      [.int Number.overlong] ∧
    overlay (.map [(.int Number.overlong, .bool true)]) (.map [(.int Number.overlong, .int 1)]) =
      .error (.shape .integerTooLong) := by
  have clash : Clash (.bool true) (.int 1) := ⟨by decide, by decide, by decide⟩
  have here (value : Value) :
      find? [(Scalar.int Number.overlong, value)] (.int Number.overlong) = some value := by
    rw [find?, if_pos (Scalar.same_refl _)]
  have agree : ¬ ClashAt (.map [(.int Number.overlong, .bool true)])
      (.map [(.int Number.overlong, .int 1)]) [] :=
    fun clash => (clashAt_nil.mp clash).notMaps ⟨rfl, rfl⟩
  have beneath : ClashAt (.map [(.int Number.overlong, .bool true)])
      (.map [(.int Number.overlong, .int 1)]) [.int Number.overlong] :=
    clashAt_cons.mpr ⟨_, _, here _, here _, clashAt_nil.mpr clash⟩
  constructor
  · simp only [paths, entryPaths, List.map_cons, List.map_nil, List.append_nil]
    exact first_cons_iff.mpr (.inr ⟨agree, first_cons_iff.mpr (.inl ⟨beneath, rfl⟩)⟩)
  · have unnamed : PolicyError.raised (.mergeConflict (.int Number.overlong) .bool .int) =
        .shape .integerTooLong := by
      rw [PolicyError.raised, ConfigError.message, Scalar.display_int, Number.display_overlong]
      rfl
    rw [overlay, overlayRecord, overlayEntries, here, ← unnamed]
    rfl

end Config
end BuildRules
