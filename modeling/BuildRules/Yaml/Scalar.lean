import BuildRules.Json.Parse
import BuildRules.Yaml.Token

/-! The type of a plain scalar by its text, as YAML 1.1 has it: an integer may be binary,
octal, decimal, hexadecimal or sexagesimal, and a float needs a point. -/
namespace BuildRules.Yaml

/-- What a scalar without quotes stands for. -/
inductive Plain where
  | leaf (leaf : Scalar)
  /-- As a key, the entries of other mappings. -/
  | merge
  /-- As a key, its own text; elsewhere nothing. -/
  | default
deriving DecidableEq

namespace Plain

private def words : List (String × Scalar) :=
  [("", .null), ("~", .null), ("null", .null), ("Null", .null), ("NULL", .null)] ++
    ["yes", "Yes", "YES", "true", "True", "TRUE", "on", "On", "ON"].map (·, .bool true) ++
    ["no", "No", "NO", "false", "False", "FALSE", "off", "Off", "OFF"].map (·, .bool false)

private def isSpaced (member : Char → Bool) (c : Char) : Bool := member c || c == '_'
private def isDecimal : Char → Bool := isSpaced Char.isDigit
private def isOctal : Char → Bool := isSpaced fun c => decide ('0' ≤ c) && decide (c ≤ '7')
private def isBinary : Char → Bool := isSpaced fun c => c == '0' || c == '1'
private def isHex : Char → Bool := isSpaced fun c => (Json.hexValue? c).isSome

/-- Underscores between digits have no meaning. -/
private def digits (chars : List Char) : List Char := chars.filter (· != '_')

private def isRun (member : Char → Bool) (chars : List Char) : Bool :=
  !chars.isEmpty && chars.all member

/-- A digit, then digits and underscores. -/
private def isCounted (chars : List Char) : Bool :=
  (chars.head?.any Char.isDigit) && chars.all isDecimal

/-- The parts between colons. -/
private def parts : List Char → List (List Char)
  | [] => [[]]
  | c :: rest =>
    match parts rest with
    | [] => [[c]]
    | part :: others => if c == ':' then [] :: part :: others else (c :: part) :: others

/-- A number below sixty, in one digit or two. -/
private def isSixtieth : List Char → Bool
  | [c] => c.isDigit
  | [c, d] => decide ('0' ≤ c) && decide (c ≤ '5') && d.isDigit
  | _ => false

private def ofRadix (radix : Nat) (chars : List Char) : Except Error Int :=
  let run := digits chars
  if run.isEmpty then .error .numberDigits
  else .ok (run.foldl (fun value c => radix * value + (Json.hexValue? c).getD 0) 0 : Nat)

private def ofDecimal (chars : List Char) : Except Error Int :=
  if Number.maxDigits < (digits chars).length then .error .numberDigits
  else ofRadix 10 chars

private def ofSixtieths (first : List Char) (rest : List (List Char)) : Except Error Int := do
  rest.foldlM (fun value part => return 60 * value + (← ofRadix 10 part)) (← ofDecimal first)

/-- An integer without its sign, in the first of its forms that fits. -/
private def magnitude? (chars : List Char) : Option (Except Error Int) :=
  match chars with
  | '0' :: 'b' :: rest => if isRun isBinary rest then some (ofRadix 2 rest) else none
  | '0' :: 'x' :: rest => if isRun isHex rest then some (ofRadix 16 rest) else none
  | '0' :: rest => if rest.all isOctal then some (ofRadix 8 chars) else none
  | _ =>
    if !isCounted chars then
      match parts chars with
      | first :: second :: rest =>
        if isCounted first && (second :: rest).all isSixtieth then
          some (ofSixtieths first (second :: rest))
        else none
      | _ => none
    else some (ofDecimal chars)

private def unsigned (chars : List Char) : Bool × List Char :=
  match chars with
  | '-' :: rest => (true, rest)
  | '+' :: rest => (false, rest)
  | _ => (false, chars)

private def int? (chars : List Char) : Option (Except Error Scalar) :=
  let (negative, rest) := unsigned chars
  (magnitude? rest).map fun read =>
    read.map fun value => .int (if negative then -value else value)

/-- Nothing, or an exponent with its sign. -/
private def exponent? (chars : List Char) : Option Int :=
  match chars with
  | [] => some 0
  | letter :: sign :: run =>
    if (letter == 'e' || letter == 'E') && isRun Char.isDigit run then
      if sign == '-' then some (-(Json.decimalValue run : Int))
      else if sign == '+' then some (Json.decimalValue run)
      else none
    else none
  | _ => none

private def ofPlaces (negative : Bool) (whole places : List Char) (exponent : Int) : Binary64 :=
  let places := digits places
  .ofDecimal negative (Json.decimalValue (digits whole ++ places)) (exponent - places.length)

/-- Sum of parts, the last with places behind a point. Each step rounds. -/
private def sixtieths (negative : Bool) (whole : List (List Char)) (places : List Char) :
    Binary64 :=
  let last := ofPlaces false (whole.getLastD []) places 0
  let others := whole.dropLast.reverse.map fun part => ofPlaces false part [] 0
  let (sum, _) := (last :: others).foldl
    (fun (total, base) part => (Binary64.add total (.mul part (.ofInt base)), 60 * base))
    (Binary64.zero false, 1)
  if negative then sum.neg else sum

private def float? (chars : List Char) : Option Binary64 :=
  let (negative, rest) := unsigned chars
  if [".inf", ".Inf", ".INF"].contains (String.ofList rest) then some (.infinity negative)
  else if [".nan", ".NaN", ".NAN"].contains (String.ofList chars) then some .nan
  else
    let whole := rest.takeWhile (· != '.')
    match rest.drop whole.length with
    | _ :: afterPoint =>
      let places := afterPoint.takeWhile isDecimal
      let tail := afterPoint.drop places.length
      if isCounted whole then (exponent? tail).map (ofPlaces negative whole places)
      else if chars.head? == some '.' && isCounted places then
        (exponent? tail).map (ofPlaces negative [] places)
      else
        match parts whole with
        | first :: second :: others =>
          if isCounted first && (second :: others).all isSixtieth && tail.isEmpty then
            some (sixtieths negative (first :: second :: others) places)
          else none
        | _ => none
    | [] => none

def ofText (text : String) : Except Error Plain :=
  let chars := text.toList
  match words.lookup text with
  | some word => .ok (.leaf word)
  | none =>
    if text == "<<" then .ok .merge
    else if text == "=" then .ok .default
    else
      match float? chars with
      | some value => .ok (.leaf (.float value))
      | none =>
        match int? chars with
        | some read => read.map .leaf
        | none => .ok (.leaf (.text text))

end Plain
end BuildRules.Yaml
