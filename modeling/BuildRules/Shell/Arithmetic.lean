import BuildRules.Json.Parse
import BuildRules.Shell.Script

namespace BuildRules.Shell.Arithmetic

inductive Symbol where
  | number (value : Int)
  | operator (text : String)

private def operators : List String :=
  ["||", "&&", "==", "!=", "<=", ">=", "<<", ">>", "<", ">", "+", "-", "*", "/", "%", "!", "~",
    "(", ")", "&", "|", "^"]

/-- A number in base ten, or in base eight or sixteen by what it begins with. -/
def numberOf? (text : Bytes) : Option Int :=
  let text := (text.dropWhile (· == ' ')).reverse.dropWhile (· == ' ') |>.reverse
  let (negative, digits) :=
    match text with
    | '-' :: rest => (true, rest)
    | '+' :: rest => (false, rest)
    | _ => (false, text)
  let magnitude : Option Nat :=
    match digits with
    | [] => none
    | '0' :: 'x' :: rest | '0' :: 'X' :: rest =>
      if rest.isEmpty then none else Json.hexDigits? rest
    | '0' :: rest =>
      if rest.all fun c => c.isDigit && decide (c < '8') then
        some (rest.foldl (fun value c => 8 * value + Json.digitValue c) 0)
      else none
    | _ => if digits.all Char.isDigit then some (Json.decimalValue digits) else none
  magnitude.map fun value => if negative then -(value : Int) else value

private def symbols (valueOf : Bytes → Bytes) : Nat → List Char → Option (List Symbol)
  | 0, _ => none
  | _ + 1, [] => some []
  | fuel + 1, c :: rest =>
    if c == ' ' || c == '\t' || c == '\n' || c == '$' then symbols valueOf fuel rest
    else if c.isAlphanum || c == '_' then
      let word := c :: rest.takeWhile isNameChar
      let value : Option Int :=
        if c.isDigit then numberOf? word
        else
          let text := valueOf word
          if text.isEmpty then some 0 else numberOf? text
      match value with
      | none => none
      | some value =>
        (symbols valueOf fuel (rest.drop (word.length - 1))).map (.number value :: ·)
    else
      match operators.find? fun operator => operator.toList.isPrefixOf (c :: rest) with
      | none => none
      | some operator =>
        (symbols valueOf fuel (rest.drop (operator.length - 1))).map (.operator operator :: ·)

/-- How strongly an operator binds its two sides. -/
private def strength? (operator : String) : Option Nat :=
  [("||", 1), ("&&", 2), ("|", 3), ("^", 4), ("&", 5), ("==", 6), ("!=", 6), ("<", 7), (">", 7),
    ("<=", 7), (">=", 7), ("<<", 8), (">>", 8), ("+", 9), ("-", 9), ("*", 10), ("/", 10),
    ("%", 10)].lookup operator

private def ofBool (value : Bool) : Int := if value then 1 else 0

/-- Quotients are cut off toward zero. -/
private def applied? (operator : String) (left right : Int) : Option Int :=
  if operator == "+" then some (left + right)
  else if operator == "-" then some (left - right)
  else if operator == "*" then some (left * right)
  else if operator == "/" then if right = 0 then none else some (left.tdiv right)
  else if operator == "%" then if right = 0 then none else some (left.tmod right)
  else if operator == "<" then some (ofBool (left < right))
  else if operator == ">" then some (ofBool (right < left))
  else if operator == "<=" then some (ofBool (left ≤ right))
  else if operator == ">=" then some (ofBool (right ≤ left))
  else if operator == "==" then some (ofBool (left = right))
  else if operator == "!=" then some (ofBool (left ≠ right))
  else if operator == "&&" then some (ofBool (left ≠ 0 && right ≠ 0))
  else if operator == "||" then some (ofBool (left ≠ 0 || right ≠ 0))
  else if operator == "<<" then some (left * (Nat.pow 2 right.toNat : Nat))
  else if operator == ">>" then some (left / (Nat.pow 2 right.toNat : Nat))
  else none

mutual

private def operand : Nat → List Symbol → Option (Int × List Symbol)
  | 0, _ => none
  | fuel + 1, symbols =>
    match symbols with
    | .number value :: rest => some (value, rest)
    | .operator "(" :: rest => do
      let (value, rest) ← expression fuel 1 rest
      match rest with
      | .operator ")" :: rest => return (value, rest)
      | _ => none
    | .operator "-" :: rest => (operand fuel rest).map fun (value, rest) => (-value, rest)
    | .operator "+" :: rest => operand fuel rest
    | .operator "!" :: rest =>
      (operand fuel rest).map fun (value, rest) => (ofBool (value = 0), rest)
    | .operator "~" :: rest => (operand fuel rest).map fun (value, rest) => (-value - 1, rest)
    | _ => none

private def expression : Nat → Nat → List Symbol → Option (Int × List Symbol)
  | 0, _, _ => none
  | fuel + 1, least, symbols => do
    let (left, rest) ← operand fuel symbols
    continued fuel least left rest

/-- Operators that bind at least so strongly, from the left. -/
private def continued : Nat → Nat → Int → List Symbol → Option (Int × List Symbol)
  | 0, _, _, _ => none
  | fuel + 1, least, left, symbols =>
    match symbols with
    | .operator operator :: rest =>
      match strength? operator with
      | none => some (left, symbols)
      | some strength =>
        if strength < least then some (left, symbols)
        else do
          let (right, rest) ← expression fuel (strength + 1) rest
          continued fuel least (← applied? operator left right) rest
    | _ => some (left, symbols)

end

/-- The value of an expression; an empty one is zero. -/
def eval? (valueOf : Bytes → Bytes) (text : Bytes) : Option Int := do
  let symbols ← symbols valueOf (text.length + 1) text
  if symbols.isEmpty then return 0
  match ← expression (4 * symbols.length + 4) 1 symbols with
  | (value, []) => return value
  | _ => none

end BuildRules.Shell.Arithmetic
