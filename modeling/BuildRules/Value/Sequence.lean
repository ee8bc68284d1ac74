import BuildRules.Value.Basic

namespace BuildRules

inductive Value.Fault where
  | unordered (left right : Kind)
  | notIterable (kind : Kind)
  | notText (kind : Kind)
  /-- Only leaves are keys. -/
  | notKey (kind : Kind)
  /-- An entry is given by two items. -/
  | notPair (size : Nat)
  /-- Entries are asked of what is not a map. -/
  | noEntries (kind : Kind)
  /-- A text is asked of an integer that has none. -/
  | integerTooLong
  /-- What is no part of a document. -/
  | notJson (kind : Kind)
deriving DecidableEq

namespace Value

/-- Items of a list, keys of a map, characters of a text. -/
def sequence : Value → Except Fault (List Value)
  | .list items => .ok items
  | .map entries => .ok (entries.map fun entry => .scalar entry.1)
  | .text value => .ok (value.toList.map fun c => .text (String.singleton c))
  | value => .error (.notIterable value.kind)

private def pair (value : Value) : Except Fault (Scalar × Value) := do
  match ← value.sequence with
  | [.scalar key, entry] => .ok (key, entry)
  | [key, _] => .error (.notKey key.kind)
  | items => .error (.notPair items.length)

/-- A fresh table: the entries of a map, or the pairs of any other sequence. -/
def table (value : Value) : Except Fault Record :=
  match value with
  | .map entries => .ok entries
  | _ => do
    let items ← value.sequence
    let pairs ← items.mapM pair
    .ok (Entries.ofList pairs)

/-- The entries of a map and of nothing else. -/
def entries : Value → Except Fault Record
  | .map entries => .ok entries
  | value => .error (.noEntries value.kind)

/-- The value, or another one where it counts as false. -/
def orElse (value fallback : Value) : Value := if value.truthy then value else fallback

/-- Texts of a sequence joined by a separator. -/
def joined (separator : String) (value : Value) : Except Fault String := do
  let items ← value.sequence
  let texts ← items.mapM fun item =>
    match item with
    | .text value => .ok value
    | other => .error (Fault.notText other.kind)
  .ok (separator.intercalate texts)

mutual

/-- Equality of values: numbers by value, lists item by item, maps entry by entry in any
order. -/
def same : Value → Value → Bool
  | .scalar left, right => match right with
    | .scalar leaf => left.same leaf
    | _ => false
  | .list items, right => match right with
    | .list others => sameItems items others
    | _ => false
  | .map entries, right => match right with
    | .map others => entries.length == others.length && sameEntries entries others
    | _ => false

private def sameItems : List Value → List Value → Bool
  | [], others => others.isEmpty
  | item :: rest, others => match others with
    | [] => false
    | other :: remaining => item.same other && sameItems rest remaining

private def sameEntries : List (Scalar × Value) → List (Scalar × Value) → Bool
  | [], _ => true
  | (key, value) :: rest, others =>
    (match Entries.find? others key with
      | some other => value.same other
      | none => false) && sameEntries rest others

end

end Value

/-- Whether a leaf comes strictly before another. Numbers have an order and so have texts;
between other leaves there is none. -/
def Scalar.before (left right : Scalar) : Except Value.Fault Bool :=
  match left, right with
  | .text leftText, .text rightText => .ok (decide (leftText < rightText))
  | .null, _ | _, .null | .text _, _ | _, .text _ | .foreign _, _ | _, .foreign _ =>
    .error (.unordered left.kind right.kind)
  | _, _ =>
    match left.place?, right.place? with
    | some leftPlace, some rightPlace =>
      .ok (decide (leftPlace.1 < rightPlace.1) ||
        (leftPlace.1 == rightPlace.1 && decide (leftPlace.2 < rightPlace.2)))
    | _, _ => .ok false

namespace Value

mutual

/-- Whether a value comes strictly before another. Lists are compared at the first place
where they differ. -/
def before : Value → Value → Except Fault Bool
  | .scalar left, right => match right with
    | .scalar leaf => left.before leaf
    | _ => .error (.unordered left.kind right.kind)
  | .list items, right => match right with
    | .list others => itemsBefore items others
    | _ => .error (.unordered .list right.kind)
  | .map _, right => .error (.unordered .map right.kind)

private def itemsBefore : List Value → List Value → Except Fault Bool
  | [], others => .ok !others.isEmpty
  | item :: rest, others => match others with
    | [] => .ok false
    | other :: remaining =>
      if item.same other then itemsBefore rest remaining else item.before other

end

end Value
end BuildRules
