import BuildRules.Json.Render

/-! Reading of JSON text. Besides the standard forms the names `NaN`, `Infinity` and
`-Infinity` are numbers. A repeated member keeps its first place and takes the last value. -/
namespace BuildRules.Json

inductive ParseError where
  | malformed
  | integerTooLong
deriving DecidableEq

def malformed {α : Type} : Except ParseError α := .error .malformed

def isSpace (c : Char) : Bool := c == ' ' || c == '\t' || c == '\n' || c == '\r'

def skipSpace (chars : List Char) : List Char := chars.dropWhile isSpace

def digitValue (c : Char) : Nat := c.toNat - '0'.toNat

/-- Value of a run of decimal digits. -/
def decimalValue (digits : List Char) : Nat :=
  digits.foldl (fun value c => 10 * value + digitValue c) 0

def hexValue? (c : Char) : Option Nat :=
  if c.isDigit then some (digitValue c)
  else if 'a' ≤ c ∧ c ≤ 'f' then some (c.toNat - 'a'.toNat + 10)
  else if 'A' ≤ c ∧ c ≤ 'F' then some (c.toNat - 'A'.toNat + 10)
  else none

/-- Value of exactly these hexadecimal digits. -/
def hexDigits? (digits : List Char) : Option Nat :=
  digits.foldlM (fun value c => (hexValue? c).map (16 * value + ·)) 0

def codeUnit? (chars : List Char) : Option (Nat × List Char) :=
  match chars with
  | a :: b :: c :: d :: rest => (hexDigits? [a, b, c, d]).map (·, rest)
  | _ => none

/-- The character written by an escape `\u`, which for a high surrogate takes the escape
of a low surrogate after it. A surrogate that stands alone is no character. -/
def unicodeEscape (chars : List Char) : Except ParseError (Char × List Char) :=
  match codeUnit? chars with
  | none => malformed
  | some (unit, rest) =>
    if 0xD800 ≤ unit ∧ unit < 0xDC00 then
      match rest with
      | '\\' :: 'u' :: more =>
        match codeUnit? more with
        | some (low, after) =>
          if 0xDC00 ≤ low ∧ low < 0xE000 then
            .ok (Char.ofNat (0x10000 + (unit - 0xD800) * 0x400 + (low - 0xDC00)), after)
          else malformed
        | none => malformed
      | _ => malformed
    else if 0xDC00 ≤ unit ∧ unit < 0xE000 then malformed
    else .ok (Char.ofNat unit, rest)

def simpleEscape? (c : Char) : Option Char :=
  if c == '\x22' || c == '\\' || c == '/' then some c
  else if c == 'b' then some '\x08'
  else if c == 'f' then some '\x0c'
  else if c == 'n' then some '\n'
  else if c == 'r' then some '\r'
  else if c == 't' then some '\t'
  else none

/-- The rest of a text after its opening quote. -/
def textBody : Nat → List Char → List Char → Except ParseError (String × List Char)
  | 0, _, _ => malformed
  | _ + 1, _, [] => malformed
  | fuel + 1, written, c :: rest =>
    if c == '\x22' then .ok (String.ofList written.reverse, rest)
    else if c == '\\' then
      match rest with
      | [] => malformed
      | 'u' :: more =>
        match unicodeEscape more with
        | .ok (decoded, after) => textBody fuel (decoded :: written) after
        | .error fault => .error fault
      | escape :: more =>
        match simpleEscape? escape with
        | some decoded => textBody fuel (decoded :: written) more
        | none => malformed
    else if c.toNat < 32 then malformed
    else textBody fuel (c :: written) rest

/-- An optional fraction: a point with digits after it. -/
def fraction (chars : List Char) : List Char × List Char :=
  match chars with
  | '.' :: rest =>
    let digits := rest.takeWhile Char.isDigit
    if digits.isEmpty then ([], chars) else (digits, rest.dropWhile Char.isDigit)
  | _ => ([], chars)

def signed (negative : Bool) (magnitude : Nat) : Int :=
  if negative then -(magnitude : Int) else magnitude

/-- An optional exponent: the letter, a sign or none, and digits. -/
def exponent? (chars : List Char) : Option (Int × List Char) :=
  match chars with
  | letter :: rest =>
    if letter == 'e' || letter == 'E' then
      let (negative, digits) :=
        match rest with
        | '-' :: more => (true, more)
        | '+' :: more => (false, more)
        | _ => (false, rest)
      let run := digits.takeWhile Char.isDigit
      if run.isEmpty then none
      else some (signed negative (decimalValue run), digits.dropWhile Char.isDigit)
    else none
  | [] => none

def number (negative : Bool) (chars : List Char) : Except ParseError (Json × List Char) :=
  let digits :=
    match chars with
    | '0' :: _ => ['0']
    | _ => chars.takeWhile Char.isDigit
  if digits.isEmpty then malformed
  else
    let rest := chars.drop digits.length
    let (places, afterFraction) := fraction rest
    match exponent? afterFraction with
    | some (exponent, after) =>
      .ok (.float (.ofDecimal negative (decimalValue (digits ++ places))
        (exponent - places.length)), after)
    | none =>
      if places.isEmpty then
        let value := signed negative (decimalValue digits)
        if short : Number.isShort value = true then .ok (.int value short, rest)
        else .error .integerTooLong
      else
        .ok (.float (.ofDecimal negative (decimalValue (digits ++ places)) (-places.length)),
          afterFraction)

/-- The rest after a word, if the text begins with it. -/
def after? (word : String) (chars : List Char) : Option (List Char) :=
  if word.toList.isPrefixOf chars then some (chars.drop word.length) else none

def names : List (String × Json) :=
  [("null", .null), ("true", .bool true), ("false", .bool false), ("NaN", .float .nan),
    ("Infinity", .float (.infinity false)), ("-Infinity", .float (.infinity true))]

def named? (chars : List Char) : Option (Json × List Char) :=
  names.findSome? fun entry => (after? entry.1 chars).map (entry.2, ·)

mutual

def value : Nat → List Char → Except ParseError (Json × List Char)
  | 0, _ => malformed
  | fuel + 1, chars =>
    match named? chars with
    | some found => .ok found
    | none =>
      match chars with
      | '\x22' :: rest => do
        let (content, after) ← textBody (rest.length + 1) [] rest
        .ok (.text content, after)
      | '[' :: rest =>
        match skipSpace rest with
        | ']' :: after => .ok (.array [], after)
        | rest => items fuel [] rest
      | '\x7b' :: rest =>
        match skipSpace rest with
        | '\x7d' :: after => .ok (.object [], after)
        | rest => members fuel [] rest
      | '-' :: rest => number true rest
      | _ => number false chars

def items : Nat → List Json → List Char → Except ParseError (Json × List Char)
  | 0, _, _ => malformed
  | fuel + 1, read, chars => do
    let (item, rest) ← value fuel chars
    match skipSpace rest with
    | ',' :: more => items fuel (item :: read) (skipSpace more)
    | ']' :: after => .ok (.array (item :: read).reverse, after)
    | _ => malformed

def members : Nat → List (String × Json) → List Char → Except ParseError (Json × List Char)
  | 0, _, _ => malformed
  | fuel + 1, read, chars =>
    match chars with
    | '\x22' :: rest => do
      let (key, afterKey) ← textBody (rest.length + 1) [] rest
      match skipSpace afterKey with
      | ':' :: more => do
        let (member, rest) ← value fuel (skipSpace more)
        match skipSpace rest with
        | ',' :: more => members fuel ((key, member) :: read) (skipSpace more)
        | '\x7d' :: after => .ok (.object ((key, member) :: read).reverse, after)
        | _ => malformed
      | _ => malformed
    | _ => malformed

end

/-- The document that a text consists of. Every value takes at least one character, which
bounds the depth of the reading. -/
def parse (text : String) : Except ParseError Json := do
  let chars := skipSpace text.toList
  let (document, rest) ← value (2 * chars.length + 2) chars
  if (skipSpace rest).isEmpty then .ok document else malformed

mutual

/-- The value of a document. -/
def toValue : Json → Value
  | .null => .null
  | .bool value => .bool value
  | .int value _ => .int value
  | .float value => .float value
  | .text value => .text value
  | .array items => .list (itemValues items)
  | .object members => .map (Entries.ofList (memberValues members))

def itemValues : List Json → List Value
  | [] => []
  | item :: rest => item.toValue :: itemValues rest

def memberValues : List (String × Json) → List (Scalar × Value)
  | [] => []
  | (key, value) :: rest => (.text key, value.toValue) :: memberValues rest

end

def read (text : String) : Except ParseError Value := (parse text).map toValue

end BuildRules.Json
