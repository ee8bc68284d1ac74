import BuildRules.Json.Render
import BuildRules.Proofs.Number.Shortest
import BuildRules.Proofs.Text.Boundary

namespace BuildRules.Json

open Binary64

/-- What follows a number: nothing that would belong to it. -/
def Halts (rest : List Char) : Prop :=
  ∀ c ∈ rest.head?, c.isDigit = false ∧ c ≠ '.' ∧ c ≠ 'e' ∧ c ≠ 'E'

/-- What follows a run of digits. -/
def Breaks (rest : List Char) : Prop := ∀ c ∈ rest.head?, c.isDigit = false

variable {run rest : List Char}

theorem Halts.breaks (halts : Halts rest) : Breaks rest := fun c member => (halts c member).1

theorem takeWhile_of_breaks (digits : ∀ c ∈ run, c.isDigit = true) (breaks : Breaks rest) :
    (run ++ rest).takeWhile Char.isDigit = run ∧ (run ++ rest).dropWhile Char.isDigit = rest := by
  exact ⟨Text.takeWhile_run digits breaks, Text.dropWhile_run digits breaks⟩

/-- The digits before the point: one zero, or digits that begin with another one. -/
inductive Whole : List Char → Prop where
  | zero : Whole ['0']
  | digits {first : Char} {more : List Char} (other : first ≠ '0') (digit : first.isDigit = true)
      (run : ∀ c ∈ more, c.isDigit = true) : Whole (first :: more)

def fractionText (places : List Char) : List Char :=
  if places.isEmpty then [] else '.' :: places

theorem fraction_text {places : List Char} (digits : ∀ c ∈ places, c.isDigit = true)
    (breaks : Breaks rest) (pointless : places = [] → ∀ c ∈ rest.head?, c ≠ '.') :
    fraction (fractionText places ++ rest) = (places, rest) := by
  cases places with
  | nil =>
    cases rest with
    | nil => rfl
    | cons c rest =>
      have other := pointless rfl c rfl
      simp only [fractionText, List.isEmpty_nil, if_true, List.nil_append, fraction]
      split
      next shape => exact absurd (List.cons.inj shape).1 other
      next => rfl
  | cons first more =>
    obtain ⟨taken, dropped⟩ := takeWhile_of_breaks digits breaks
    simp only [fractionText, List.isEmpty_cons, Bool.false_eq_true, if_false, List.cons_append,
      fraction]
    rw [List.cons_append] at taken dropped
    rw [taken, dropped]
    rfl

theorem exponent?_none (halts : Halts rest) : exponent? rest = none := by
  cases rest with
  | nil => rfl
  | cons c rest =>
    obtain ⟨-, -, lower, upper⟩ := halts c rfl
    simp [exponent?, lower, upper]

theorem exponent?_text (negative : Bool) (nonempty : run ≠ [])
    (digits : ∀ c ∈ run, c.isDigit = true) (breaks : Breaks rest) :
    exponent? ('e' :: (if negative then '-' else '+') :: (run ++ rest)) =
      some (signed negative (decimalValue run), rest) := by
  obtain ⟨taken, dropped⟩ := takeWhile_of_breaks digits breaks
  have present : run.isEmpty = false := by simpa using nonempty
  cases negative with
  | true => simp [exponent?, taken, dropped, present]
  | false => simp [exponent?, taken, dropped, present]

/-- A numeral falls into its whole part, its places and what follows them. -/
theorem number_parts {whole places tail : List Char} (negative : Bool) (leading : Whole whole)
    (digits : ∀ c ∈ places, c.isDigit = true) (breaks : Breaks tail)
    (pointless : places = [] → ∀ c ∈ tail.head?, c ≠ '.') :
    number negative (whole ++ (fractionText places ++ tail)) =
      match exponent? tail with
      | some (exponent, after) =>
        .ok (.float (.ofDecimal negative (decimalValue (whole ++ places))
          (exponent - places.length)), after)
      | none =>
        if places.isEmpty then
          if short : Number.isShort (signed negative (decimalValue whole)) = true then
            .ok (.int (signed negative (decimalValue whole)) short, fractionText places ++ tail)
          else .error .integerTooLong
        else
          .ok (.float (.ofDecimal negative (decimalValue (whole ++ places)) (-places.length)),
            tail) := by
  have fractional := fraction_text digits breaks pointless
  have broken : Breaks (fractionText places ++ tail) := by
    cases places with
    | nil => exact breaks
    | cons first more =>
      intro c member
      cases member
      rfl
  cases leading with
  | zero =>
    rcases ending : exponent? tail with _ | ⟨exponent, after⟩ <;>
      simp only [number, List.cons_append, List.nil_append, List.isEmpty_cons, Bool.false_eq_true,
        if_false, List.length_cons, List.length_nil, List.drop_succ_cons, List.drop_zero,
        fractional, ending]
  | @digits first more other digit run =>
    have all : ∀ c ∈ first :: more, c.isDigit = true := List.forall_mem_cons.mpr ⟨digit, run⟩
    obtain ⟨taken, -⟩ := takeWhile_of_breaks all broken
    have dropped : ((first :: more) ++ (fractionText places ++ tail)).drop (first :: more).length =
        fractionText places ++ tail := List.drop_left
    rw [number]
    · rw [taken, dropped]
      rcases ending : exponent? tail with _ | ⟨exponent, after⟩ <;>
        simp only [List.isEmpty_cons, Bool.false_eq_true, if_false, fractional, ending]
    · intro after shape
      exact other (List.cons.inj shape).1

/-- A whole part and places that stand for the magnitude at an index. -/
structure Numeral (whole places : List Char) (exponent : Int) (index : Nat) : Prop where
  leading : Whole whole
  digits : ∀ c ∈ places, c.isDigit = true
  value : Decimal.readIndex (decimalValue (whole ++ places)) (exponent - places.length) = index

variable {whole places tail : List Char} {exponent : Int} {index : Nat}

/-- The two forms of a numeral for the magnitude at an index. -/
inductive Figures (index : Nat) : List Char → Prop where
  | positional {whole places : List Char} (numeral : Numeral whole places 0 index)
      (nonempty : places ≠ []) : Figures index (whole ++ fractionText places)
  | exponential {whole places run : List Char} {negative : Bool}
      (numeral : Numeral whole places (signed negative (decimalValue run)) index)
      (nonempty : run ≠ []) (digits : ∀ c ∈ run, c.isDigit = true) :
      Figures index
        (whole ++ (fractionText places ++ 'e' :: (if negative then '-' else '+') :: run))

theorem Numeral.read (numeral : Numeral whole places 0 index) (nonempty : places ≠ [])
    (negative : Bool) (halts : Halts rest) :
    number negative (whole ++ (fractionText places ++ rest)) =
      .ok (.float (ofIndex negative index), rest) := by
  have fractional : places.isEmpty = false := by simpa using nonempty
  have value := numeral.value
  rw [Int.zero_sub] at value
  rw [number_parts negative numeral.leading numeral.digits halts.breaks (absurd · nonempty),
    exponent?_none halts, ← value, ← Decimal.ofDecimal_eq]
  simp [fractional]

theorem Numeral.read_scaled (numeral : Numeral whole places exponent index)
    (scaled : exponent? tail = some (exponent, rest)) (negative : Bool)
    (breaks : Breaks tail) (pointless : ∀ c ∈ tail.head?, c ≠ '.') :
    number negative (whole ++ (fractionText places ++ tail)) =
      .ok (.float (ofIndex negative index), rest) := by
  rw [number_parts negative numeral.leading numeral.digits breaks fun _ => pointless, scaled,
    ← numeral.value, ← Decimal.ofDecimal_eq]

variable {decimal : Decimal}

theorem zeros_digits (count : Int) : ∀ c ∈ Decimal.zeros count, c.isDigit = true := by
  intro c member
  rw [List.eq_of_mem_replicate member]
  rfl

theorem Whole.of_reads (reads : decimal.Reads index) {length : Nat} (kept : 0 < length)
    {more : List Char} (run : ∀ c ∈ more, c.isDigit = true)
    (plain : decimal = ⟨['0'], 1⟩ → more = []) : Whole (decimal.digits.take length ++ more) := by
  obtain ⟨length, rfl⟩ := Nat.exists_eq_succ_of_ne_zero (Nat.ne_of_gt kept)
  rcases reads.leading with single | ⟨first, digits, shape, other⟩
  · rw [plain single, single]
    simpa using Whole.zero
  · have all := reads.digits
    rw [shape] at all ⊢
    obtain ⟨digit, rest⟩ := List.forall_mem_cons.mp all
    apply Whole.digits other digit
    intro c member
    rcases List.mem_append.mp member with front | back
    · exact rest c (List.mem_of_mem_take front)
    · exact run c back

theorem numeral_before (reads : decimal.Reads index) (small : decimal.point ≤ 0) :
    Numeral ['0'] (Decimal.zeros (-decimal.point) ++ decimal.digits) 0 index := by
  refine ⟨.zero, ?_, ?_⟩
  · intro c member
    rcases List.mem_append.mp member with zero | digit
    · exact zeros_digits _ c zero
    · exact reads.digits c digit
  · have exponent : 0 - ((Decimal.zeros (-decimal.point) ++ decimal.digits).length : Int) =
        decimal.point - decimal.digits.length := by
      simp only [Decimal.zeros, List.length_append, List.length_replicate]
      omega
    have leading : ['0'] ++ (Decimal.zeros (-decimal.point) ++ decimal.digits) =
        List.replicate ((-decimal.point).toNat + 1) '0' ++ decimal.digits := by
      rw [← List.append_assoc, List.replicate_succ]
      rfl
    rw [exponent, leading, decimalValue_zeros_append]
    exact reads.value

theorem numeral_after (reads : decimal.Reads index)
    (large : (decimal.digits.length : Int) ≤ decimal.point) (positive : 0 < decimal.digits.length) :
    Numeral (decimal.digits ++ Decimal.zeros (decimal.point - decimal.digits.length)) ['0'] 0
      index := by
  refine ⟨?_, List.forall_mem_singleton.mpr rfl, ?_⟩
  · have whole := Whole.of_reads reads positive (zeros_digits (decimal.point - decimal.digits.length))
    rw [List.take_length] at whole
    apply whole
    rintro rfl
    rfl
  · have trailing : decimal.digits ++
        Decimal.zeros (decimal.point - decimal.digits.length) ++ ['0'] =
        decimal.digits ++
          List.replicate ((decimal.point - decimal.digits.length).toNat + 1) '0' := by
      rw [List.append_assoc, List.replicate_succ']
      rfl
    have exponent : (0 : Int) - (['0'].length : Nat) +
        ((decimal.point - decimal.digits.length).toNat + 1 : Nat) =
        decimal.point - decimal.digits.length := by
      simp only [List.length_singleton]
      omega
    rw [trailing, decimalValue_zeros, Decimal.readIndex_zeros, exponent]
    exact reads.value

theorem numeral_inside (reads : decimal.Reads index) (length : Nat) (kept : 0 < length)
    (inside : length ≤ decimal.digits.length) :
    Numeral (decimal.digits.take length) (decimal.digits.drop length) (decimal.point - length)
      index := by
  refine ⟨?_, fun c member => reads.digits c (List.mem_of_mem_drop member), ?_⟩
  · rw [← List.append_nil (decimal.digits.take length)]
    apply Whole.of_reads reads kept
    · simp
    · intro
      rfl
  · have exponent : decimal.point - length - (decimal.digits.drop length).length =
        decimal.point - decimal.digits.length := by
      rw [List.length_drop]
      omega
    rw [exponent, List.take_append_drop]
    exact reads.value

theorem figures_positional (reads : decimal.Reads index) :
    Figures index (Decimal.positional decimal) := by
  have positive : 0 < decimal.digits.length := by
    rcases reads.leading with rfl | ⟨first, more, shape, -⟩
    · exact Nat.zero_lt_one
    · rw [shape]
      exact Nat.zero_lt_succ _
  rw [Decimal.positional]
  split
  next small =>
    have places : Decimal.zeros (-decimal.point) ++ decimal.digits ≠ [] := by
      simp [List.ne_nil_of_length_pos positive]
    have figures := Figures.positional (numeral_before reads small) places
    rw [fractionText, if_neg (by simpa using places)] at figures
    exact figures
  next =>
    split
    next large => exact .positional (numeral_after reads large positive) (List.cons_ne_nil _ _)
    next inside =>
      have places : decimal.digits.drop decimal.point.toNat ≠ [] := by
        simp
        omega
      have numeral := numeral_inside reads decimal.point.toNat (by omega) (by omega)
      have whole : decimal.point - decimal.point.toNat = 0 := by omega
      rw [whole] at numeral
      have figures := Figures.positional numeral places
      rw [fractionText, if_neg (by simpa using places)] at figures
      exact figures

theorem figures_exponential (reads : decimal.Reads index) (form : NumberForm) :
    Figures index (Decimal.exponential form decimal) := by
  let magnitude := Nat.toDigits 10 (decimal.point - 1).natAbs
  let run := List.replicate (form.exponentWidth - magnitude.length) '0' ++ magnitude
  have nonempty : run ≠ [] := by
    simp [run, magnitude, Nat.toDigits_ne_nil]
  have digits : ∀ c ∈ run, c.isDigit = true := by
    intro c member
    rcases List.mem_append.mp member with zero | digit
    · rw [List.eq_of_mem_replicate zero]
      rfl
    · exact Nat.isDigit_of_mem_toDigits (by decide) (by decide) digit
  -- the zeros that widen the exponent do not change it
  have value : signed (decide (decimal.point - 1 < 0)) (decimalValue run) = decimal.point - 1 := by
    rw [decimalValue_zeros_append, decimalValue_toDigits, signed]
    split
    next below =>
      have below := of_decide_eq_true below
      omega
    next above =>
      have above := of_decide_eq_false (Bool.eq_false_of_not_eq_true above)
      omega
  obtain ⟨first, more, shape⟩ : ∃ first more, decimal.digits = first :: more := by
    rcases reads.leading with rfl | ⟨first, more, shape, -⟩
    · exact ⟨'0', [], rfl⟩
    · exact ⟨first, more, shape⟩
  have numeral := numeral_inside reads 1 Nat.zero_lt_one (by simp [shape])
  rw [shape, Nat.cast_one, ← value] at numeral
  have text : Decimal.exponential form decimal = [first] ++ (fractionText more ++
      'e' :: (if decide (decimal.point - 1 < 0) then '-' else '+') :: run) := by
    rw [Decimal.exponential, shape]
    cases more with
    | nil => simp [fractionText, run, magnitude]
    | cons second more => simp [fractionText, run, magnitude]
  rw [text]
  exact .exponential numeral nonempty digits

/-- A decimal that reads as a magnitude is written as a numeral for it in every form. -/
theorem figures_write (reads : decimal.Reads index) (form : NumberForm) :
    Figures index (decimal.write form) := by
  rw [Decimal.write]
  split
  next => exact figures_positional reads
  next => exact figures_exponential reads form

variable {text : List Char}

theorem Figures.read (figures : Figures index text) (negative : Bool) (halts : Halts rest) :
    number negative (text ++ rest) = .ok (.float (ofIndex negative index), rest) := by
  cases figures with
  | positional numeral nonempty =>
    rw [List.append_assoc]
    exact numeral.read nonempty negative halts
  | @exponential whole places run below numeral nonempty digits =>
    have scaled := exponent?_text below nonempty digits halts.breaks
    have letter : ∀ c ∈ ('e' :: (if below then '-' else '+') :: (run ++ rest)).head?,
        c = 'e' := by simp
    rw [List.append_assoc, List.append_assoc]
    exact numeral.read_scaled scaled negative (fun c member => letter c member ▸ rfl)
      (fun c member => letter c member ▸ by decide)

theorem number_shortest (index : Fin finiteCount) (form : NumberForm) (negative : Bool)
    (halts : Halts rest) :
    number negative ((Decimal.shortest index).write form ++ rest) =
      .ok (.float (.finite negative index), rest) := by
  have figures := figures_write (Decimal.shortest_reads index) form
  rw [figures.read negative halts, ofIndex, dif_pos index.isLt]

end BuildRules.Json
