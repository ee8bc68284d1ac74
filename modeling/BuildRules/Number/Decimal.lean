import BuildRules.Number.Binary64

/-! Decimal text of binary64 numbers: the fewest digits that read back to the same
number, and of those the nearest to it. -/
namespace BuildRules

/-- `0.d₁d₂… * 10 ^ point`, without trailing zeros. -/
structure Decimal where
  digits : List Char
  point : Int
deriving DecidableEq

/-- Where a printed number changes its form, and the words for what is not finite. -/
structure NumberForm where
  /-- A value below `10 ^ positionalBelow` is written positionally, -/
  positionalBelow : Int
  /-- and not below `10 ^ positionalFrom`. -/
  positionalFrom : Int
  exponentWidth : Nat
  nan : String
  infinity : String

namespace Decimal

/-- A count of steps divided by `10 ^ exponent`, as a quotient. -/
def scaled (steps : Nat) (exponent : Int) : Nat × Nat :=
  if 0 ≤ exponent then (steps, Binary64.stepsInOne * Nat.pow 10 exponent.toNat)
  else (steps * Nat.pow 10 (-exponent).toNat, Binary64.stepsInOne)

/-- The exponent of the least power of ten above a positive magnitude. The logarithm of
two gives it up to one, and the powers decide. -/
def pointOf (steps : Nat) : Int :=
  let guess : Int := ((steps.log2 : Int) - 1074) * 30103 / 100000
  let above (exponent : Int) : Bool :=
    let (num, den) := scaled steps exponent
    num < den
  ((List.range 5).map (fun offset : Nat => guess - 1 + offset)).find? above |>.getD (guess + 4)

/-- Index of the number that `digits * 10 ^ exponent` reads as. -/
def readIndex (digits : Nat) (exponent : Int) : Nat :=
  if 0 ≤ exponent then Binary64.nearestIndex (digits * Nat.pow 10 exponent.toNat) 1
  else Binary64.nearestIndex digits (Nat.pow 10 (-exponent).toNat)

/-- A value with `count` digits that reads back to the magnitude at `index`: of its two
neighbours on that grid the nearer, if both read back; a tie goes to the even one. -/
def onGrid? (index : Nat) (point : Int) (count : Nat) : Option (Nat × Int) :=
  let exponent := point - count
  let (num, den) := scaled (Binary64.steps index) exponent
  let lower := num / den
  let rest := num % den
  let lowerReads := readIndex lower exponent == index
  let upperReads := readIndex (lower + 1) exponent == index
  let nearest := Binary64.roundQuotient num den
  if lowerReads && upperReads then some (nearest, exponent)
  else if lowerReads then some (lower, exponent)
  else if upperReads && rest != 0 then some (lower + 1, exponent)
  else none

def dropTrailingZeros (digits : List Char) : List Char :=
  (digits.reverse.dropWhile (· == '0')).reverse

/-- The exact decimal expansion, for the case that no short grid has an answer. -/
def exact (index : Nat) : Nat × Int :=
  (Binary64.steps index * Nat.pow 5 1074, -1074)

/-- The shortest decimal of the magnitude at an index. -/
def shortest (index : Nat) : Decimal :=
  if index = 0 then ⟨['0'], 1⟩
  else
    let point := pointOf (Binary64.steps index)
    let (value, exponent) :=
      ((List.range 17).findSome? (fun count => onGrid? index point (count + 1))).getD
        (exact index)
    let digits := Nat.toDigits 10 value
    ⟨dropTrailingZeros digits, exponent + digits.length⟩

def zeros (count : Int) : List Char := List.replicate count.toNat '0'

def positional (decimal : Decimal) : List Char :=
  let length : Int := decimal.digits.length
  if decimal.point ≤ 0 then
    '0' :: '.' :: zeros (-decimal.point) ++ decimal.digits
  else if length ≤ decimal.point then
    decimal.digits ++ zeros (decimal.point - length) ++ ['.', '0']
  else
    decimal.digits.take decimal.point.toNat ++ '.' :: decimal.digits.drop decimal.point.toNat

def exponential (form : NumberForm) (decimal : Decimal) : List Char :=
  let exponent := decimal.point - 1
  let sign := if exponent < 0 then '-' else '+'
  let magnitude := Nat.toDigits 10 exponent.natAbs
  let padding := List.replicate (form.exponentWidth - magnitude.length) '0'
  let fraction :=
    match decimal.digits with
    | [] => []
    | [digit] => [digit]
    | digit :: rest => digit :: '.' :: rest
  fraction ++ 'e' :: sign :: padding ++ magnitude

def write (form : NumberForm) (decimal : Decimal) : List Char :=
  let exponent := decimal.point - 1
  if form.positionalFrom ≤ exponent ∧ exponent < form.positionalBelow then positional decimal
  else exponential form decimal

end Decimal

/-- Text of a number in a form. -/
def Binary64.write (form : NumberForm) : Binary64 → String
  | .nan => form.nan
  | .infinity negative => (if negative then "-" else "") ++ form.infinity
  | .finite negative index =>
    (if negative then "-" else "") ++ String.ofList (Decimal.write form (Decimal.shortest index))

end BuildRules
