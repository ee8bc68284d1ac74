import BuildRules.Proofs.Time.IsoText
import BuildRules.Run.Manifest

/-! The texts of UTC times sort as the times do. Numbers of one width sort by value, and a date is
three of them from the widest unit on. A fraction that is left out comes before every other, since
the sign of the offset comes before the point. -/
namespace BuildRules

namespace Json

theorem digit_bounds {c : Char} (digit : c.isDigit = true) : 48 ≤ c.toNat ∧ c.toNat ≤ 57 := by
  simpa [Char.isDigit, UInt32.le_iff_toNat_le] using digit

theorem digitValue_eq (c : Char) : digitValue c = c.toNat - 48 := rfl

theorem decimalValue_cons (c : Char) (run : List Char) :
    decimalValue (c :: run) = 10 ^ run.length * digitValue c + decimalValue run := by
  change Nat.ofDigitChars 10 (c :: run) 0 = _ + Nat.ofDigitChars 10 run 0
  rw [Nat.ofDigitChars_cons, Nat.ofDigitChars_eq_ofDigitChars_zero, Nat.mul_zero, Nat.zero_add]
  rfl

theorem decimalValue_lt {run : List Char} (digits : ∀ c ∈ run, c.isDigit = true) :
    decimalValue run < 10 ^ run.length := by
  induction run with
  | nil => exact Nat.one_pos
  | cons c run ih =>
    obtain ⟨digit, digits⟩ := List.forall_mem_cons.mp digits
    have bounds := digit_bounds digit
    have least : digitValue c + 1 ≤ 10 := by
      rw [digitValue_eq]
      omega
    rw [decimalValue_cons, List.length_cons, Nat.pow_succ]
    calc 10 ^ run.length * digitValue c + decimalValue run
        < 10 ^ run.length * digitValue c + 10 ^ run.length := Nat.add_lt_add_left (ih digits) _
      _ = 10 ^ run.length * (digitValue c + 1) := (Nat.mul_succ _ _).symm
      _ ≤ 10 ^ run.length * 10 := Nat.mul_le_mul_left _ least

/-- Of two runs of as many digits the one for the smaller number comes first, whatever follows. -/
theorem lt_of_decimalValue_lt {left right : List Char} (even : left.length = right.length)
    (leftDigits : ∀ c ∈ left, c.isDigit = true) (rightDigits : ∀ c ∈ right, c.isDigit = true)
    (less : decimalValue left < decimalValue right) (rest later : List Char) :
    left ++ rest < right ++ later := by
  induction left generalizing right with
  | nil =>
    cases List.eq_nil_of_length_eq_zero even.symm
    exact absurd less (Nat.lt_irrefl _)
  | cons c left ih =>
    obtain ⟨other, right, rfl⟩ := List.exists_cons_of_length_eq_add_one even.symm
    have tails : left.length = right.length := Nat.succ.inj even
    obtain ⟨digit, leftDigits⟩ := List.forall_mem_cons.mp leftDigits
    obtain ⟨otherDigit, rightDigits⟩ := List.forall_mem_cons.mp rightDigits
    have bounds := digit_bounds digit
    have otherBounds := digit_bounds otherDigit
    rw [decimalValue_cons, decimalValue_cons, tails, digitValue_eq, digitValue_eq] at less
    rw [List.cons_append, List.cons_append, List.cons_lt_cons_iff]
    rcases Nat.lt_trichotomy c.toNat other.toNat with before | same | after
    · refine .inl ?_
      rw [Char.lt_def, UInt32.lt_iff_toNat_lt]
      exact before
    · rw [same] at less
      exact .inr ⟨Char.toNat_inj.mp same,
        ih tails leftDigits rightDigits (Nat.lt_of_add_lt_add_left less)⟩
    · have room := decimalValue_lt rightDigits
      have more : 10 ^ right.length * (other.toNat - 48 + 1) ≤
          10 ^ right.length * (c.toNat - 48) := Nat.mul_le_mul_left _ (by omega)
      rw [Nat.mul_succ] at more
      omega

end Json

namespace Timestamp

open Time

theorem padded_lt {width value other : Nat} (positive : 0 < width) (room : other < 10 ^ width)
    {rest later : List Char} (before : value < other ∨ value = other ∧ rest < later) :
    padded width value ++ rest < padded width other ++ later := by
  rcases before with less | ⟨rfl, less⟩
  · have left := padded_digits positive (Nat.lt_trans less room)
    have right := padded_digits positive room
    have values : Json.decimalValue (padded width value) <
        Json.decimalValue (padded width other) := by
      rw [left.value, right.value]
      exact less
    exact Json.lt_of_decimalValue_lt (left.length.trans right.length.symm) left.digits right.digits
      values rest later
  · exact List.append_left_lt less

/-- The same with a mark behind the number. -/
theorem padded_mark_lt {width value other : Nat} (positive : 0 < width) (room : other < 10 ^ width)
    (mark : Char) {rest later : List Char} (before : value < other ∨ value = other ∧ rest < later) :
    padded width value ++ mark :: rest < padded width other ++ mark :: later :=
  padded_lt positive room (before.imp_right fun both => ⟨both.1, List.cons_lt_cons_self.mpr both.2⟩)

theorem fractionText_lt {micros other : Nat} (less : micros < other) (short : other < 1000000) :
    fractionText micros ++ offsetText 0 < fractionText other ++ offsetText 0 := by
  have some : fractionText other = '.' :: padded 6 other := if_neg (by omega)
  rw [some, List.cons_append]
  by_cases whole : micros = 0
  · have none : fractionText micros = [] := if_pos whole
    rw [none, List.nil_append]
    exact List.cons_lt_cons_iff.mpr (.inl (by decide))
  · have fraction : fractionText micros = '.' :: padded 6 micros := if_neg whole
    rw [fraction, List.cons_append, List.cons_lt_cons_self]
    exact padded_lt (by decide) short (.inl less)

/-- Hours, minutes, seconds and their fraction on a UTC clock. -/
def clockChars (inDay : Nat) : List Char :=
  padded 2 (inDay / 1000000 / 3600) ++ ':' :: (padded 2 (inDay / 1000000 / 60 % 60) ++ ':' ::
    (padded 2 (inDay / 1000000 % 60) ++ (fractionText (inDay % 1000000) ++ offsetText 0)))

theorem clockChars_lt {inDay later : Nat} (less : inDay < later) (short : later < 86400000000) :
    clockChars inDay < clockChars later := by
  have fraction (less : inDay % 1000000 < later % 1000000) :=
    fractionText_lt less (Nat.mod_lt later (by decide))
  refine padded_mark_lt (by decide) (by omega) ':' ?_
  rcases Nat.lt_or_eq_of_le (by omega : inDay / 1000000 / 3600 ≤ later / 1000000 / 3600) with
    hour | hour
  · exact .inl hour
  refine .inr ⟨hour, padded_mark_lt (by decide) (by omega) ':' ?_⟩
  rcases Nat.lt_or_eq_of_le
    (by omega : inDay / 1000000 / 60 % 60 ≤ later / 1000000 / 60 % 60) with minute | minute
  · exact .inl minute
  refine .inr ⟨minute, padded_lt (by decide) (by omega) ?_⟩
  rcases Nat.lt_or_eq_of_le
    (by omega : inDay / 1000000 % 60 ≤ later / 1000000 % 60) with second | second
  · exact .inl second
  exact .inr ⟨second, fraction (by omega)⟩

/-- A day and what follows it. -/
def dateChars (day : Nat) (rest : List Char) : List Char :=
  padded 4 (yearOfDay day) ++ '-' :: (padded 2 (monthOfDay day).1 ++
    '-' :: (padded 2 (monthOfDay day).2 ++ 'T' :: rest))

theorem dateChars_lt {day laterDay : Nat} {rest later : List Char} (inRange : laterDay < dayCount)
    (before : day < laterDay ∨ day = laterDay ∧ rest < later) :
    dateChars day rest < dateChars laterDay later := by
  obtain ⟨month, date, result, -, month_le, -, date_le, -⟩ := monthOfDay_spec laterDay
  have length_le := daysInMonth_le (yearOfDay laterDay) month
  have year_le := yearOfDay_le inRange
  have monthRoom : (monthOfDay laterDay).1 < 10 ^ 2 := by
    rw [result]
    omega
  have dateRoom : (monthOfDay laterDay).2 < 10 ^ 2 := by
    rw [result]
    omega
  refine padded_mark_lt (by decide) (by omega) '-' ?_
  rcases before with earlier | ⟨rfl, less⟩
  · refine (date_before earlier).imp_right fun ⟨year, inYear⟩ => ⟨year, ?_⟩
    refine padded_mark_lt (by decide) monthRoom '-' (inYear.imp_right fun ⟨month, date⟩ => ?_)
    exact ⟨month, padded_mark_lt (by decide) dateRoom 'T' (.inl date)⟩
  · refine .inr ⟨rfl, padded_mark_lt (by decide) monthRoom '-' (.inr ⟨rfl, ?_⟩)⟩
    exact padded_mark_lt (by decide) dateRoom 'T' (.inr ⟨rfl, less⟩)

theorem isoChars_eq {time : Timestamp} (utc : time.offset = some 0) :
    time.isoChars = dateChars (time.wall / microsPerDay) (clockChars (time.wall % microsPerDay)) :=
  isoChars_utc utc (Prod.eta _).symm

theorem isoChars_lt {time later : Timestamp} (utc : time.offset = some 0)
    (laterUtc : later.offset = some 0) (before : time.wall < later.wall) :
    time.isoChars < later.isoChars := by
  rw [isoChars_eq utc, isoChars_eq laterUtc]
  have inRange : later.wall / microsPerDay < dayCount :=
    (Nat.div_lt_iff_lt_mul (by decide)).mpr later.inRange
  apply dateChars_lt inRange
  have day_le : time.wall / microsPerDay ≤ later.wall / microsPerDay :=
    Nat.div_le_div_right (Nat.le_of_lt before)
  rcases Nat.lt_or_eq_of_le day_le with earlier | same
  · exact .inl earlier
  · have whole := Nat.div_add_mod time.wall microsPerDay
    have laterWhole := Nat.div_add_mod later.wall microsPerDay
    rw [same] at whole
    have inDay : time.wall % microsPerDay < later.wall % microsPerDay := by omega
    exact .inr ⟨same, clockChars_lt inDay (Nat.mod_lt _ (by decide))⟩

/-- Texts of UTC times sort as the times. -/
theorem iso_lt_iff {time later : Timestamp} (utc : time.offset = some 0)
    (laterUtc : later.offset = some 0) : time.iso < later.iso ↔ time.wall < later.wall := by
  have sorted {first second : Timestamp} (firstUtc : first.offset = some 0)
      (secondUtc : second.offset = some 0) (before : first.wall < second.wall) :
      first.iso < second.iso := by
    change (String.ofList first.isoChars).toList < (String.ofList second.isoChars).toList
    rw [String.toList_ofList, String.toList_ofList]
    exact isoChars_lt firstUtc secondUtc before
  constructor
  · intro precedes
    rcases Nat.lt_trichotomy time.wall later.wall with before | same | after
    · exact before
    · have shown : time.iso = later.iso := by
        rw [iso, iso, isoChars_eq utc, isoChars_eq laterUtc, same]
      rw [shown] at precedes
      exact absurd precedes (String.lt_irrefl _)
    · exact absurd precedes (String.lt_asymm (sorted laterUtc utc after))
  · exact sorted utc laterUtc

/-- A time that the calendar of UTC has. -/
def InCalendar (time : Timestamp) : Prop := 0 ≤ time.instant ∧ time.instant < microCount

theorem utc?_of_inCalendar {time : Timestamp} (inCalendar : time.InCalendar) :
    ∃ utc, time.utc? = some utc ∧ utc.offset = some 0 ∧ utc.wall = time.instant := by
  obtain ⟨positive, short⟩ := inCalendar
  have fits : 0 ≤ time.instant ∧ time.instant.toNat < microCount := ⟨positive, by omega⟩
  exact ⟨_, dif_pos fits, rfl, Int.toNat_of_nonneg positive⟩

/-- Every time that the calendar of UTC has is recorded as a text that is read back as the same
instant, and of two such times the text of the one comes first just when the one is the earlier. -/
theorem utcText_chronological {first second : Timestamp} (firstIn : first.InCalendar)
    (secondIn : second.InCalendar) :
    ∃ text other, Manifest.utcText first = .ok text ∧ Manifest.utcText second = .ok other ∧
      (∃ back, ofIso? text = some back ∧ back.offset = some 0 ∧ back.instant = first.instant) ∧
      (text < other ↔ first.instant < second.instant) := by
  obtain ⟨utc, shown, aligned, wall⟩ := utc?_of_inCalendar firstIn
  obtain ⟨otherUtc, otherShown, otherAligned, otherWall⟩ := utc?_of_inCalendar secondIn
  refine ⟨utc.iso, otherUtc.iso, by rw [Manifest.utcText, shown],
    by rw [Manifest.utcText, otherShown], ?_, ?_⟩
  · exact ⟨utc, ofIso?_iso aligned, aligned, (instant_of_utc? shown).1⟩
  · rw [iso_lt_iff aligned otherAligned, ← wall, ← otherWall, Int.ofNat_lt]

instance (time : Timestamp) : Decidable time.InCalendar := inferInstanceAs (Decidable (_ ∧ _))

/-- The last evening of a year, five hours behind UTC, is the microsecond before one of the next
year. The text of the earlier is the shorter one. -/
theorem midnight_chronological :
    ∃ first second text other, ofIso? "2023-12-31T19:00:00-05:00" = some first ∧
      ofIso? "2024-01-01T00:00:00.000001" = some second ∧ first.InCalendar ∧ second.InCalendar ∧
      Manifest.utcText first = .ok text ∧ Manifest.utcText second = .ok other ∧
      (∃ back, ofIso? text = some back ∧ back.offset = some 0 ∧ back.instant = first.instant) ∧
      text < other := by
  let first : Timestamp := ⟨63839646000000000, some (-18000000000), by decide +kernel⟩
  let second : Timestamp := ⟨63839664000000001, none, by decide +kernel⟩
  have firstIn : first.InCalendar := by decide +kernel
  have secondIn : second.InCalendar := by decide +kernel
  obtain ⟨text, other, recorded, otherRecorded, back, sorts⟩ :=
    utcText_chronological firstIn secondIn
  exact ⟨first, second, text, other, by decide +kernel, by decide +kernel, firstIn, secondIn,
    recorded, otherRecorded, back, sorts.mpr (by decide +kernel)⟩

end Timestamp
end BuildRules
