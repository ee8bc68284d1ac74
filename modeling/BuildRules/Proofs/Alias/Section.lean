import BuildRules.Proofs.Alias.Table
import BuildRules.Proofs.Returns
import BuildRules.Vendor.Source
import Mathlib.Data.List.Forall2

/-! The table of a section: the reserved alias first, then every declaration in its place. What
the reserved alias stands for has no part in whether the section is accepted. -/
namespace BuildRules

def Alias.Declares (entry : Scalar × Value) (declared : Alias) : Prop :=
  Alias.parse (.scalar entry.1) entry.2 = .ok declared

namespace AliasTable

variable {table result : AliasTable}

theorem ext {first second : AliasTable} (reserved : first.reserved = second.reserved)
    (aliases : first.aliases = second.aliases) : first = second := by
  cases first
  cases second
  cases reserved
  cases aliases
  rfl

theorem eq_iff {first second : AliasTable} :
    first = second ↔ first.reserved = second.reserved ∧ first.aliases = second.aliases :=
  ⟨fun same => ⟨same ▸ rfl, same ▸ rfl⟩, fun both => ext both.1 both.2⟩

theorem add_eq_ok {entry : Alias} {allowed : Bool} :
    table.add entry allowed = .ok result ↔
      (entry.name ∈ table.reserved → allowed = true) ∧ entry.name ∉ table.names ∧
        result.reserved = table.reserved ∧ result.aliases = table.aliases ++ [entry] := by
  rw [add]
  split
  next refused =>
    have : entry.name ∈ table.reserved ∧ allowed = false := by simpa using refused
    simp [this]
  next open_ =>
    have may : entry.name ∈ table.reserved → allowed = true := by simpa using open_
    split
    next taken =>
      have : entry.name ∈ table.names := List.contains_iff_mem.mp taken
      simp [this]
    next free =>
      have : entry.name ∉ table.names := fun member => free (List.contains_iff_mem.mpr member)
      simp only [Except.ok.injEq, eq_iff]
      constructor
      · rintro ⟨reserved, aliases⟩
        exact ⟨may, this, reserved.symm, aliases.symm⟩
      · rintro ⟨-, -, reserved, aliases⟩
        exact ⟨reserved.symm, aliases.symm⟩

/-- Every entry declares an alias under a free name, and the table grows by them in order. -/
theorem declare_eq_ok {entries : Record} :
    table.declare entries = .ok result ↔
      ∃ declared, List.Forall₂ Alias.Declares entries declared ∧
        (∀ alias_ ∈ declared, alias_.name ∉ table.reserved) ∧
        (table.names ++ declared.map Alias.name).Nodup ∧
        result.reserved = table.reserved ∧ result.aliases = table.aliases ++ declared := by
  induction entries generalizing table with
  | nil =>
    have distinct : table.names.Nodup := table.distinct
    simp only [declare, Except.ok.injEq, eq_iff, List.forall₂_nil_left_iff, exists_eq_left]
    simp [distinct, eq_comm]
  | cons entry rest ih =>
    obtain ⟨name, definition⟩ := entry
    simp only [declare, bind_eq_ok, ih, add_eq_ok, List.forall₂_cons_left_iff]
    constructor
    · rintro ⟨first, parsed, grown, ⟨open_, -, reserved, aliases⟩, later, parses, unreserved,
        distinct, kept, whole⟩
      rw [reserved] at unreserved kept
      rw [names, aliases, List.map_append, List.append_assoc] at distinct
      rw [aliases, List.append_assoc] at whole
      have closed : first.name ∉ table.reserved := fun member => by cases open_ member
      exact ⟨first :: later, ⟨first, later, parsed, parses, rfl⟩,
        List.forall_mem_cons.mpr ⟨closed, unreserved⟩, distinct, kept, whole⟩
    · rintro ⟨_, ⟨first, later, parsed, parses, rfl⟩, unreserved, distinct, kept, whole⟩
      obtain ⟨closed, unreserved⟩ := List.forall_mem_cons.mp unreserved
      -- the first name is free where the table ends, since all the names together are distinct
      have split : table.names ++ (first :: later).map Alias.name =
          (table.aliases ++ [first]).map Alias.name ++ later.map Alias.name := by
        simp [names]
      rw [split] at distinct
      rw [List.append_cons] at whole
      have grownDistinct := (List.nodup_append.mp distinct).1
      have free : first.name ∉ table.names := by
        rw [List.map_append, List.nodup_append] at grownDistinct
        exact fun member => grownDistinct.2.2 _ member first.name (by simp) rfl
      exact ⟨first, parsed, ⟨table.reserved, table.aliases ++ [first], grownDistinct⟩,
        ⟨fun member => absurd member closed, free, rfl, rfl⟩, later, parses, unreserved, distinct,
        kept, whole⟩

def sectionEntries? : Value → Option Record
  | .null => some []
  | .map entries => some entries
  | _ => none

theorem install_single (entry : Alias) :
    ∃ installed : AliasTable, install (empty [Alias.vendoredName]) [entry] = .ok installed ∧
      installed.reserved = [Alias.vendoredName] ∧ installed.aliases = [entry] := by
  have grown : ∃ installed : AliasTable, (empty [Alias.vendoredName]).add entry true = .ok installed ∧
      installed.reserved = [Alias.vendoredName] ∧ installed.aliases = [entry] :=
    ⟨⟨[Alias.vendoredName], [entry], by simp⟩, add_eq_ok.mpr ⟨by simp, by simp [names, empty], rfl, rfl⟩,
      rfl, rfl⟩
  obtain ⟨installed, added, reserved, aliases⟩ := grown
  exact ⟨installed, by rw [install, added]; rfl, reserved, aliases⟩

/-- A section is accepted if its entries declare aliases under names of their own, none of them
reserved. They follow the built-in alias in order. -/
theorem ofSection_eq_ok {section_ : Value} {entry : Alias} (named : entry.name = Alias.vendoredName) :
    ofSection section_ [entry] = .ok result ↔
      ∃ entries declared, sectionEntries? section_ = some entries ∧
        List.Forall₂ Alias.Declares entries declared ∧
        ((entry :: declared).map Alias.name).Nodup ∧
        result.reserved = [Alias.vendoredName] ∧ result.aliases = entry :: declared := by
  obtain ⟨installed, built, reserved, aliases⟩ := install_single entry
  have accepted (entries : Record) : installed.declare entries = .ok result ↔
      ∃ declared, List.Forall₂ Alias.Declares entries declared ∧
        ((entry :: declared).map Alias.name).Nodup ∧
        result.reserved = [Alias.vendoredName] ∧ result.aliases = entry :: declared := by
    simp only [declare_eq_ok, names, reserved, aliases, List.map_cons, List.map_nil,
      List.singleton_append]
    refine exists_congr fun declared => and_congr_right fun _ => ?_
    refine and_iff_right_of_imp ?_
    rintro ⟨distinct, -⟩
    have free := (List.nodup_cons.mp distinct).1
    intro alias_ member taken
    rw [List.mem_singleton] at taken
    exact free (named ▸ taken ▸ List.mem_map_of_mem member)
  have read : ofSection section_ [entry] =
      (sectionEntries? section_).elim (.error (.raised (.aliasSection section_.kind))) installed.declare := by
    unfold ofSection
    rw [built]
    cases section_ with
    | scalar leaf => cases leaf <;> rfl
    | list items => rfl
    | map entries => rfl
  rw [read]
  cases present : sectionEntries? section_ with
  | none => simp
  | some entries => simp [accepted]

end AliasTable
end BuildRules
