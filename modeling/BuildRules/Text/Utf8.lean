/-! UTF-8 text of bytes. Where bytes are no UTF-8, the longest run that begins a character
stands for one replacement character, and so does any other byte. -/
namespace BuildRules.Text

/-- A character of several bytes, begun: how many it still needs, the bounds of the next
one, and the bits so far. -/
structure Begun where
  owed : Nat
  low : Nat
  high : Nat
  bits : Nat

/-- The first byte of a character of several. -/
def begin? (byte : Nat) : Option Begun :=
  if 0xC2 ≤ byte ∧ byte ≤ 0xDF then some ⟨1, 0x80, 0xBF, byte - 0xC0⟩
  else if byte = 0xE0 then some ⟨2, 0xA0, 0xBF, 0⟩
  else if byte = 0xED then some ⟨2, 0x80, 0x9F, 0x0D⟩
  else if 0xE1 ≤ byte ∧ byte ≤ 0xEF then some ⟨2, 0x80, 0xBF, byte - 0xE0⟩
  else if byte = 0xF0 then some ⟨3, 0x90, 0xBF, 0⟩
  else if 0xF1 ≤ byte ∧ byte ≤ 0xF3 then some ⟨3, 0x80, 0xBF, byte - 0xF0⟩
  else if byte = 0xF4 then some ⟨3, 0x80, 0x8F, 4⟩
  else none

/-- Text read so far, last character first, and a character begun. -/
structure Decoding where
  written : List Char
  begun : Option Begun

def replacement : Char := '\ufffd'

namespace Decoding

private def first (written : List Char) (byte : Nat) : Decoding :=
  if byte < 0x80 then ⟨Char.ofNat byte :: written, none⟩
  else
    match begin? byte with
    | some begun => ⟨written, some begun⟩
    | none => ⟨replacement :: written, none⟩

/-- One byte more. -/
def step (decoding : Decoding) (byte : UInt8) : Decoding :=
  let byte := byte.toNat
  match decoding.begun with
  | none => first decoding.written byte
  | some begun =>
    if begun.low ≤ byte ∧ byte ≤ begun.high then
      let bits := begun.bits * 64 + byte % 64
      if begun.owed ≤ 1 then ⟨Char.ofNat bits :: decoding.written, none⟩
      else ⟨decoding.written, some ⟨begun.owed - 1, 0x80, 0xBF, bits⟩⟩
    else first (replacement :: decoding.written) byte

def finish (decoding : Decoding) : List Char :=
  match decoding.begun with
  | none => decoding.written.reverse
  | some _ => (replacement :: decoding.written).reverse

end Decoding

/-- The characters of a sequence of bytes. -/
def decode (bytes : List UInt8) : List Char := (bytes.foldl Decoding.step ⟨[], none⟩).finish

end BuildRules.Text
