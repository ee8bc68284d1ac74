/-! Binary64 numbers as exact data. The finite magnitudes are numbered in ascending
order, so rounding a quotient is one index computation and comparison is exact. -/
namespace BuildRules

/-- How many magnitudes there are from one power of two up to the next. -/
def Binary64.binade : Nat := Nat.pow 2 52

/-- How many magnitudes are finite, zero included. -/
def Binary64.finiteCount : Nat := 2047 * binade

inductive Binary64 where
  | nan
  | infinity (negative : Bool)
  /-- The magnitude is the one at this place in the ascending list of finite magnitudes. -/
  | finite (negative : Bool) (index : Fin Binary64.finiteCount)
deriving DecidableEq

namespace Binary64

def zero (negative : Bool) : Binary64 := .finite negative ⟨0, by decide⟩

instance : Inhabited Binary64 := ⟨zero false⟩

/-- The number one, counted in steps of `2 ^ -1074`. -/
def stepsInOne : Nat := Nat.pow 2 1074

/-- The magnitude at an index, counted in those steps. -/
def steps (index : Nat) : Nat :=
  let significand := if index < 2 * binade then index else binade + index % binade
  significand * Nat.pow 2 (index / binade - 1)

/-- Nearest natural number to a quotient; a half goes to the even neighbour. -/
def roundQuotient (num den : Nat) : Nat :=
  let whole := num / den
  let rest := num % den
  if 2 * rest < den then whole
  else if den < 2 * rest then whole + 1
  else whole + whole % 2

/-- Index of the magnitude nearest to `num / den`, possibly past the last finite one. -/
def nearestIndex (num den : Nat) : Nat :=
  let scaled := num * stepsInOne
  let whole := scaled / den
  if whole < 2 * binade then roundQuotient scaled den
  else
    let shift := whole.log2 - 52
    shift * binade + roundQuotient scaled (den * Nat.pow 2 shift)

def ofIndex (negative : Bool) (index : Nat) : Binary64 :=
  if small : index < finiteCount then .finite negative ⟨index, small⟩ else .infinity negative

/-- The number nearest to a quotient, with the sign given. -/
def ofQuotient (negative : Bool) (num den : Nat) : Binary64 :=
  ofIndex negative (nearestIndex num den)

def ofInt (value : Int) : Binary64 :=
  ofQuotient (decide (value < 0)) value.natAbs 1

/-- The number nearest to `digits * 10 ^ exponent`. Far outside the finite range the
answer is known without building the power. -/
def ofDecimal (negative : Bool) (digits : Nat) (exponent : Int) : Binary64 :=
  let length : Int := (Nat.toDigits 10 digits).length
  if digits = 0 then zero negative
  else if 400 < exponent + length then .infinity negative
  else if exponent + length < -400 then zero negative
  else if 0 ≤ exponent then ofQuotient negative (digits * Nat.pow 10 exponent.toNat) 1
  else ofQuotient negative digits (Nat.pow 10 (-exponent).toNat)

/-- Exact value of a finite number in steps of `2 ^ -1074`. -/
def signedSteps (negative : Bool) (index : Nat) : Int :=
  if negative then -(steps index : Int) else steps index

/-- The finite number nearest to a signed count of steps over `den`; a zero result takes
the sign given. -/
private def ofSteps (zeroNegative : Bool) (num : Int) (den : Nat) : Binary64 :=
  if num = 0 then zero zeroNegative
  else ofQuotient (decide (num < 0)) num.natAbs (stepsInOne * den)

def add : Binary64 → Binary64 → Binary64
  | .nan, _ | _, .nan => .nan
  | .infinity left, .infinity right => if left = right then .infinity left else .nan
  | .infinity sign, .finite .. | .finite .., .infinity sign => .infinity sign
  | .finite leftSign left, .finite rightSign right =>
    ofSteps (leftSign && rightSign) (signedSteps leftSign left + signedSteps rightSign right) 1

def mul : Binary64 → Binary64 → Binary64
  | .nan, _ | _, .nan => .nan
  | .infinity left, .infinity right => .infinity (left != right)
  | .infinity sign, .finite other index | .finite other index, .infinity sign =>
    if index.val = 0 then .nan else .infinity (sign != other)
  | .finite leftSign left, .finite rightSign right =>
    ofSteps (leftSign != rightSign) (signedSteps leftSign left * signedSteps rightSign right)
      stepsInOne

def neg : Binary64 → Binary64
  | .nan => .nan
  | .infinity sign => .infinity !sign
  | .finite sign index => .finite (!sign) index

/-- The integer part of a finite number; none for the others. -/
def truncate? : Binary64 → Option Int
  | .finite negative index =>
    let whole : Nat := steps index / stepsInOne
    some (if negative then -(whole : Int) else whole)
  | _ => none

/-- Place of a number on the extended line: the first component tells the infinities
apart, the second is exact. Not a number has none. -/
def place? : Binary64 → Option (Int × Int)
  | .nan => none
  | .infinity negative => some (if negative then -1 else 1, 0)
  | .finite negative index => some (0, signedSteps negative index)

/-- Place of an integer on the same line. -/
def placeOfInt (value : Int) : Int × Int := (0, value * stepsInOne)

def isZero : Binary64 → Bool
  | .finite _ index => index.val == 0
  | _ => false

end Binary64
end BuildRules
