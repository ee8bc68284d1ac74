import Mathlib.Data.List.TakeWhile

namespace BuildRules.Text

variable {kind : Char → Bool} {run rest : List Char}

/-- What begins with no character of a kind. -/
def Ends (kind : Char → Bool) (rest : List Char) : Prop := ∀ c ∈ rest.head?, kind c = false

theorem ends_nil : Ends kind [] := by
  intro c same
  cases same

theorem ends_cons {c : Char} (other : kind c = false) : Ends kind (c :: rest) := by
  intro first same
  obtain rfl := Option.some.inj same
  exact other

theorem takeWhile_of_ends (ends : Ends kind rest) : rest.takeWhile kind = [] := by
  cases rest with
  | nil => rfl
  | cons c rest =>
    have other : kind c = false := ends c rfl
    exact List.takeWhile_cons_of_neg (by simp [other])

theorem dropWhile_of_ends (ends : Ends kind rest) : rest.dropWhile kind = rest := by
  cases rest with
  | nil => rfl
  | cons c rest =>
    have other : kind c = false := ends c rfl
    exact List.dropWhile_cons_of_neg (by simp [other])

theorem takeWhile_run (alike : ∀ c ∈ run, kind c = true) (ends : Ends kind rest) :
    (run ++ rest).takeWhile kind = run := by
  rw [List.takeWhile_append_of_pos alike, takeWhile_of_ends ends, List.append_nil]

theorem dropWhile_run (alike : ∀ c ∈ run, kind c = true) (ends : Ends kind rest) :
    (run ++ rest).dropWhile kind = rest := by
  rw [List.dropWhile_append_of_pos alike, dropWhile_of_ends ends]

end BuildRules.Text
