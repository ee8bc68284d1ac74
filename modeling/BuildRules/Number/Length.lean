namespace BuildRules.Number

/-- Most digits of an integer that is converted from a text or to one. -/
def maxDigits : Nat := 4300

def isShort (value : Int) : Bool := decide ((Nat.toDigits 10 value.natAbs).length ≤ maxDigits)

end BuildRules.Number
