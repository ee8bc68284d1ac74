namespace BuildRules

/-- Inclusive ranges of code points. -/
abbrev CodeRanges := List (Nat × Nat)

def CodeRanges.has (ranges : CodeRanges) (c : Char) : Bool :=
  ranges.any fun range => decide (range.1 ≤ c.toNat) && decide (c.toNat ≤ range.2)

/-- The property White_Space and the four information separators. -/
def blankRanges : CodeRanges :=
  [(9, 13), (28, 32), (133, 133), (160, 160), (5760, 5760), (8192, 8202), (8232, 8233),
    (8239, 8239), (8287, 8287), (12288, 12288)]

def isBlank (c : Char) : Bool := blankRanges.has c

/-- Characters that end a line. A carriage return and a line feed after it end one line. -/
def lineEndRanges : CodeRanges := [(10, 13), (28, 30), (133, 133), (8232, 8233)]

def isLineEnd (c : Char) : Bool := lineEndRanges.has c

namespace Text

def trimChars (chars : List Char) : List Char :=
  ((chars.dropWhile isBlank).reverse.dropWhile isBlank).reverse

/-- A text without the white space at its ends. -/
def trim (text : String) : String := String.ofList (trimChars text.toList)

def isBlankText (text : String) : Bool := text.toList.all isBlank

/-- Maximal runs without white space, in order. `word` holds the run in progress, last
character first. -/
def wordsFrom (word : List Char) : List Char → List (List Char)
  | [] => if word.isEmpty then [] else [word.reverse]
  | c :: rest =>
    if isBlank c then
      if word.isEmpty then wordsFrom [] rest else word.reverse :: wordsFrom [] rest
    else wordsFrom (c :: word) rest

def wordsOfChars (chars : List Char) : List (List Char) := wordsFrom [] chars

def words (text : String) : List String := (wordsOfChars text.toList).map String.ofList

/-- Lines without their ends; a text that ends with a line end has no empty last line. -/
def linesFrom (line : List Char) : List Char → List (List Char)
  | [] => if line.isEmpty then [] else [line.reverse]
  | '\r' :: '\n' :: rest => line.reverse :: linesFrom [] rest
  | c :: rest =>
    if isLineEnd c then line.reverse :: linesFrom [] rest else linesFrom (c :: line) rest

def linesOfChars (chars : List Char) : List (List Char) := linesFrom [] chars

def lines (text : String) : List String := (linesOfChars text.toList).map String.ofList

/-- Every line end written as carriage return, alone or before a line feed, becomes a
line feed. -/
def unifyLineEnds : List Char → List Char
  | [] => []
  | '\r' :: '\n' :: rest => '\n' :: unifyLineEnds rest
  | c :: rest => (if c == '\r' then '\n' else c) :: unifyLineEnds rest

/-- Capital letters of the ASCII range become small; all else stays. -/
def lowerAscii (text : String) : String := String.ofList (text.toList.map Char.toLower)

end Text
end BuildRules
