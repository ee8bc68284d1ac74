namespace BuildRules.Yaml

/-- Characters that end a line, once carriage returns are gone. -/
def isBreak (c : Char) : Bool :=
  c == '\n' || c == '\x85' || c == '\u2028' || c == '\u2029'

/-- A space, a tab or the end of a line. -/
def isGap (c : Char) : Bool := c == ' ' || c == '\t' || isBreak c

/-- Tabs, line ends and everything that prints; a text with any other character is refused. -/
def isAllowed (c : Char) : Bool :=
  let code := c.toNat
  code == 9 || code == 10 || code == 13 || code == 0x85 ||
    (decide (32 ≤ code) && decide (code ≤ 126)) ||
    (decide (0xA0 ≤ code) && decide (code ≤ 0xFFFD)) || decide (0x10000 ≤ code)

structure Cursor where
  rest : List Char
  index : Nat
  line : Nat
  column : Nat

namespace Cursor

def start (chars : List Char) : Cursor := ⟨chars, 0, 0, 0⟩

def peek? (cursor : Cursor) (ahead : Nat) : Option Char := cursor.rest[ahead]?

def atEnd (cursor : Cursor) : Bool := cursor.rest.isEmpty

def is (cursor : Cursor) (c : Char) : Bool := cursor.rest.head? == some c

/-- Whether the character ahead is a gap, or the text ends before it. -/
def gapAt (cursor : Cursor) (ahead : Nat) : Bool :=
  match cursor.peek? ahead with
  | none => true
  | some c => isGap c

def lineEnds (cursor : Cursor) : Bool :=
  match cursor.rest with
  | [] => true
  | c :: _ => isBreak c

def atBreak (cursor : Cursor) : Bool :=
  match cursor.rest with
  | [] => false
  | c :: _ => isBreak c

/-- One character further. A byte order mark has no width. -/
def next (cursor : Cursor) : Cursor :=
  match cursor.rest with
  | [] => cursor
  | c :: rest =>
    if isBreak c then ⟨rest, cursor.index + 1, cursor.line + 1, 0⟩
    else if c == '\ufeff' then ⟨rest, cursor.index + 1, cursor.line, cursor.column⟩
    else ⟨rest, cursor.index + 1, cursor.line, cursor.column + 1⟩

def skip (cursor : Cursor) : Nat → Cursor
  | 0 => cursor
  | count + 1 => cursor.next.skip count

/-- The longest run of characters of a class, and the place after it. -/
def span (cursor : Cursor) (member : Char → Bool) : List Char × Cursor :=
  let run := cursor.rest.takeWhile member
  (run, cursor.skip run.length)

def skipWhile (cursor : Cursor) (member : Char → Bool) : Cursor := (cursor.span member).2

def skipSpaces (cursor : Cursor) : Cursor := cursor.skipWhile (· == ' ')

/-- A comment up to the end of its line. -/
def skipComment (cursor : Cursor) : Cursor :=
  if cursor.is '#' then cursor.skipWhile (!isBreak ·) else cursor

/-- The end of a line as it stands in a scalar: a line feed, but the two separators of
Unicode stay. -/
def lineBreak? (cursor : Cursor) : Option (Char × Cursor) :=
  match cursor.rest with
  | c :: _ =>
    if c == '\u2028' || c == '\u2029' then some (c, cursor.next)
    else if isBreak c then some ('\n', cursor.next)
    else none
  | [] => none

/-- Three hyphens or three dots followed by a gap. -/
def markAt (cursor : Cursor) : Bool :=
  let three := cursor.rest.take 3
  (three == ['-', '-', '-'] || three == ['.', '.', '.']) && cursor.gapAt 3

end Cursor
end BuildRules.Yaml
