import BuildRules.Digest.Sha256
import BuildRules.Json.Parse

namespace BuildRules.Sha256

/-- Two messages that the digest does not tell apart. -/
def Collision (left right : List UInt8) : Prop := left ≠ right ∧ digest left = digest right

theorem hexValue?_digitChar : ∀ digit < 16, Json.hexValue? (Nat.digitChar digit) = some digit := by
  decide

theorem hexDigits?_append (front : List Char) (c : Char) :
    Json.hexDigits? (front ++ [c]) = (Json.hexDigits? front).bind fun value =>
      (Json.hexValue? c).map (16 * value + ·) := by
  simp [Json.hexDigits?, List.foldlM_append]

theorem hexDigits?_toDigits (value : Nat) :
    Json.hexDigits? (Nat.toDigits 16 value) = some value := by
  induction value using Nat.strongRecOn with
  | ind value ih =>
    by_cases single : value < 16
    · rw [Nat.toDigits_of_lt_base single]
      simp [Json.hexDigits?, hexValue?_digitChar value single]
    · have several : 16 ≤ value := Nat.not_lt.mp single
      have last := hexValue?_digitChar (value % 16) (Nat.mod_lt _ (by decide))
      rw [Nat.toDigits_of_base_le (by decide) several, hexDigits?_append,
        ih (value / 16) (by omega), last]
      exact congrArg some (Nat.div_add_mod value 16)

theorem hexDigits?_zeros (count : Nat) (digits : List Char) :
    Json.hexDigits? (List.replicate count '0' ++ digits) = Json.hexDigits? digits := by
  induction count with
  | zero => rfl
  | succ count ih =>
    rw [List.replicate_succ, List.cons_append, ← ih]
    rfl

theorem hexOfWord_injective {left right : UInt32} (same : hexOfWord left = hexOfWord right) :
    left = right := by
  have read (word : UInt32) : Json.hexDigits? (hexOfWord word) = some word.toNat := by
    rw [hexOfWord, hexDigits?_zeros, hexDigits?_toDigits]
  have values := read left
  rw [same, read right] at values
  exact UInt32.toNat_inj.mp (Option.some.inj values).symm

theorem length_hexOfWord (word : UInt32) : (hexOfWord word).length = 8 := by
  have short : (Nat.toDigits 16 word.toNat).length ≤ 8 :=
    (Nat.length_toDigits_le_iff (by decide) (by decide)).mpr word.toNat_lt
  simp only [hexOfWord, List.length_append, List.length_replicate]
  omega

theorem hexOfWords_injective {left right : List UInt32}
    (same : left.flatMap hexOfWord = right.flatMap hexOfWord) : left = right := by
  have nonempty (word : UInt32) (rest : List Char) : hexOfWord word ++ rest ≠ [] := by
    intro empty
    have length := length_hexOfWord word
    rw [(List.append_eq_nil_iff.mp empty).1] at length
    cases length
  induction left generalizing right with
  | nil =>
    cases right with
    | nil => rfl
    | cons word rest => exact absurd same.symm (nonempty word _)
  | cons word rest ih =>
    cases right with
    | nil => exact absurd same (nonempty word _)
    | cons other others =>
      rw [List.flatMap_cons, List.flatMap_cons] at same
      have lengths : (hexOfWord word).length = (hexOfWord other).length := by
        rw [length_hexOfWord, length_hexOfWord]
      obtain ⟨words, tails⟩ := List.append_inj same lengths
      rw [hexOfWord_injective words, ih tails]

theorem digest_of_hex {left right : List UInt8} (same : hex left = hex right) :
    digest left = digest right :=
  hexOfWords_injective (String.ofList_injective same)

theorem toList_loop (bytes : ByteArray) (start : Nat) (read : List UInt8) :
    ByteArray.toList.loop bytes start read = read.reverse ++ bytes.data.toList.drop start := by
  induction start, read using ByteArray.toList.loop.induct bytes with
  | case1 start read inside ih =>
    have bound : start < bytes.data.toList.length := inside
    have current : bytes.get! start = bytes.data.toList[start] := by
      change bytes.data[start]! = _
      simp [getElem!_pos bytes.data start inside]
    rw [ByteArray.toList.loop, if_pos inside, ih, current, List.reverse_cons, List.append_assoc,
      List.singleton_append, List.getElem_cons_drop]
  | case2 start read past =>
    have bound : bytes.data.toList.length ≤ start := Nat.not_lt.mp past
    rw [ByteArray.toList.loop, if_neg past, List.drop_eq_nil_of_le bound, List.append_nil]

theorem utf8_injective {left right : String} (same : left.toUTF8.toList = right.toUTF8.toList) :
    left = right := by
  rw [ByteArray.toList, ByteArray.toList, toList_loop, toList_loop] at same
  apply String.toByteArray_inj.mp
  apply ByteArray.ext
  exact Array.toList_inj.mp same

/-- Texts with one digest in base 16 are equal or collide. -/
theorem eq_or_collision {left right : String}
    (same : hex left.toUTF8.toList = hex right.toUTF8.toList) :
    left = right ∨ Collision left.toUTF8.toList right.toUTF8.toList := by
  by_cases equal : left = right
  · exact .inl equal
  · exact .inr ⟨fun bytes => equal (utf8_injective bytes), digest_of_hex same⟩

end BuildRules.Sha256
