import BuildRules.Number.Binary64

/-! Configuration values: leaves, lists, and maps that keep the order of insertion. Keys of
a map are leaves; numbers that are equal are one key, whatever their type. -/
namespace BuildRules

/-- An object of a type that configurations give no meaning to, such as a date. Objects of one
type are equal if they have one identity. -/
structure Foreign where
  typeName : String
  identity : String
  /-- Its text on its own, and inside a list or map. -/
  display : String
  quoted : String
  truthy : Bool
deriving DecidableEq

/-- A leaf of a configuration. -/
inductive Scalar where
  | null
  | bool (value : Bool)
  | int (value : Int)
  | float (value : Binary64)
  | text (value : String)
  | foreign (object : Foreign)
deriving DecidableEq, Inhabited

inductive Value where
  | scalar (leaf : Scalar)
  | list (items : List Value)
  | map (entries : List (Scalar × Value))
deriving Inhabited

/-- The types of a value. -/
inductive Kind where
  | null | bool | int | float | text | list | map
  | foreign (name : String)
deriving DecidableEq

def Kind.name : Kind → String
  | .null => "NoneType"
  | .bool => "bool"
  | .int => "int"
  | .float => "float"
  | .text => "str"
  | .list => "list"
  | .map => "dict"
  | .foreign name => name

namespace Scalar

def kind : Scalar → Kind
  | .null => .null
  | .bool _ => .bool
  | .int _ => .int
  | .float _ => .float
  | .text _ => .text
  | .foreign object => .foreign object.typeName

/-- Place of a numeric leaf on the extended line; none for not a number and for what is
no number. -/
def place? : Scalar → Option (Int × Int)
  | .bool value => some (Binary64.placeOfInt (if value then 1 else 0))
  | .int value => some (Binary64.placeOfInt value)
  | .float value => value.place?
  | _ => none

/-- Equality of leaves: numbers by place. What is not a number equals nothing. -/
def same : Scalar → Scalar → Bool
  | .null, .null => true
  | .text left, .text right => left == right
  | .foreign left, .foreign right =>
    left.typeName == right.typeName && left.identity == right.identity
  | left, right =>
    match left.place?, right.place? with
    | some leftPlace, some rightPlace => leftPlace == rightPlace
    | _, _ => false

/-- Equality of keys. There is one key that is not a number. -/
def sameKey (left right : Scalar) : Bool := left.same right || left == right

end Scalar

/-- Keys of an insertion-ordered table. -/
class Key (κ : Type) where
  same : κ → κ → Bool

instance : Key Scalar := ⟨Scalar.sameKey⟩
instance : Key String := ⟨fun left right => left == right⟩

/-- Entries in order of first insertion. -/
abbrev Entries (κ α : Type) := List (κ × α)

namespace Entries

variable {κ α : Type} [Key κ]

def find? : Entries κ α → κ → Option α
  | [], _ => none
  | (candidate, value) :: rest, key =>
    if Key.same candidate key then some value else find? rest key

def has (entries : Entries κ α) (key : κ) : Bool := (entries.find? key).isSome

/-- An equal key keeps its place and its spelling and takes the new value. -/
def insert : Entries κ α → κ → α → Entries κ α
  | [], key, value => [(key, value)]
  | (candidate, old) :: rest, key, value =>
    if Key.same candidate key then (candidate, value) :: rest
    else (candidate, old) :: insert rest key value

/-- All entries of the second table inserted into the first, in order. -/
def update (entries additions : Entries κ α) : Entries κ α :=
  additions.foldl (fun table entry => table.insert entry.1 entry.2) entries

def ofList (pairs : List (κ × α)) : Entries κ α := update [] pairs

/-- Insert only where the key is absent. -/
def insertNew (entries : Entries κ α) (key : κ) (value : α) : Entries κ α :=
  if entries.has key then entries else entries.insert key value

def keys (entries : Entries κ α) : List κ := entries.map Prod.fst
def values (entries : Entries κ α) : List α := entries.map Prod.snd

end Entries

/-- The entries of a map value. -/
abbrev Record := Entries Scalar Value

/-- The entry under a textual key. -/
def Record.get? (record : Record) (name : String) : Option Value :=
  Entries.find? record (.text name)

/-- A record with textual keys. -/
def Record.ofFields (fields : List (String × Value)) : Record :=
  fields.map fun field => (.text field.1, field.2)

namespace Value

@[match_pattern] abbrev null : Value := .scalar .null
@[match_pattern] abbrev bool (value : Bool) : Value := .scalar (.bool value)
@[match_pattern] abbrev int (value : Int) : Value := .scalar (.int value)
@[match_pattern] abbrev float (value : Binary64) : Value := .scalar (.float value)
@[match_pattern] abbrev text (value : String) : Value := .scalar (.text value)

def kind : Value → Kind
  | .scalar leaf => leaf.kind
  | .list _ => .list
  | .map _ => .map

def ofRecord (record : Record) : Value := .map record
def ofFields (fields : List (String × Value)) : Value := .map (Record.ofFields fields)
def ofTexts (texts : List String) : Value := .list (texts.map .text)
def ofText? : Option String → Value
  | none => .null
  | some value => .text value

/-- Absent, empty and zero values count as false. -/
def truthy : Value → Bool
  | .null => false
  | .bool value => value
  | .int value => value != 0
  | .float value => !value.isZero
  | .text value => value != ""
  | .scalar (.foreign object) => object.truthy
  | .list items => !items.isEmpty
  | .map entries => !entries.isEmpty

def isNull : Value → Bool
  | .null => true
  | _ => false

def asText? : Value → Option String
  | .text value => some value
  | _ => none

/-- All items as texts, if all are. -/
def asTexts? (items : List Value) : Option (List String) := items.mapM asText?

end Value
end BuildRules
