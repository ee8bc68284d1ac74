import BuildRules.Alias.Basic
import BuildRules.Register
import BuildRules.Value.Distinct

namespace BuildRules

structure AliasTable where
  /-- Names that a declaration may not take. -/
  reserved : List String
  aliases : List Alias
  distinct : (aliases.map Alias.name).Nodup

namespace AliasTable

def empty (reserved : List String) : AliasTable := ⟨reserved, [], List.nodup_nil⟩

def names (table : AliasTable) : List String := table.aliases.map Alias.name

def find? (table : AliasTable) (name : String) : Option Alias :=
  table.aliases.find? fun entry => entry.name == name

def has (table : AliasTable) (name : String) : Bool := table.names.contains name

def size (table : AliasTable) : Nat := table.aliases.length

/-- A name is taken once, and a reserved one only where that is allowed. -/
def add (table : AliasTable) (entry : Alias) (allowReserved : Bool) :
    Except PolicyError AliasTable :=
  if table.reserved.contains entry.name && !allowReserved then
    .error (.raised (.aliasReserved entry.name))
  else if taken : (table.aliases.map Alias.name).contains entry.name then
    .error (.raised (.aliasDuplicate entry.name))
  else
    .ok ⟨table.reserved, table.aliases ++ [entry],
      Distinct.nodup_append table.distinct taken⟩

/-- Declarations added in order. -/
def declare (table : AliasTable) : List (Scalar × Value) → Except PolicyError AliasTable
  | [] => .ok table
  | (name, definition) :: rest => do
    let entry ← Alias.parse (.scalar name) definition
    declare (← table.add entry false) rest

def install (table : AliasTable) : List Alias → Except PolicyError AliasTable
  | [] => .ok table
  | entry :: rest => do install (← table.add entry true) rest

/-- The table of a declared section, after the aliases that the program itself makes. -/
def ofSection (declared : Value) (builtin : List Alias) : Except PolicyError AliasTable := do
  let entries ←
    match declared with
    | .null => pure []
    | .map entries => pure entries
    | _ => throw (.raised (.aliasSection declared.kind))
  let table ← install (empty [Alias.vendoredName]) builtin
  declare table entries

/-- An alias, and whether it may take a reserved name. -/
def filing (reserved : List String) : Filing (Alias × Bool) Alias where
  item := Prod.fst
  name := Alias.name
  number? _ := none
  forbidden call := reserved.contains call.1.name && !call.2
  error
    | .forbidden, entry => .aliasReserved entry.name
    | _, entry => .aliasDuplicate entry.name

end AliasTable
end BuildRules
