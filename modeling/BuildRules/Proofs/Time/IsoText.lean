import BuildRules.Proofs.Time.Calendar
import Mathlib.Algebra.Group.Nat.Defs

namespace BuildRules.Timestamp

open Time

/-- Digits of a number that a width has room for. -/
structure Digits (width value : Nat) (run : List Char) : Prop where
  length : run.length = width
  digits : ∀ c ∈ run, c.isDigit = true
  value : Json.decimalValue run = value

theorem padded_digits {width value : Nat} (positive : 0 < width) (room : value < 10 ^ width) :
    Digits width value (padded width value) := by
  have short : (Nat.toDigits 10 value).length ≤ width :=
    (Nat.length_toDigits_le_iff (by decide) positive).mpr room
  refine ⟨?_, ?_, ?_⟩
  · simp only [padded, List.length_append, List.length_replicate]
    omega
  · intro c member
    rcases List.mem_append.mp member with zero | digit
    · rw [List.eq_of_mem_replicate zero]
      decide
    · exact Nat.isDigit_of_mem_toDigits (by decide) (by decide) digit
  · change Nat.ofDigitChars 10 (padded width value) 0 = value
    simp [padded, Nat.ofDigitChars_append, Nat.ofDigitChars_replicate_zero]

theorem Digits.read {width value : Nat} {run : List Char} (digits : Digits width value run)
    (rest : List Char) : digits? width (run ++ rest) = some (value, rest) := by
  have front : (run ++ rest).take width = run := by simp [← digits.length]
  have back : (run ++ rest).drop width = rest := by simp [← digits.length]
  have all : run.all Char.isDigit = true := List.all_eq_true.mpr digits.digits
  simp only [digits?, front, back, digits.length, all, digits.value, and_self, ↓reduceIte]

theorem Digits.two {value : Nat} {run : List Char} (digits : Digits 2 value run) :
    ∃ first second, run = [first, second] ∧ first.isDigit = true := by
  match run, digits with
  | [first, second], digits => exact ⟨first, second, rfl, digits.digits first (by simp)⟩
  | [], digits | [_], digits | _ :: _ :: _ :: _, digits => exact absurd digits.length (by simp)

theorem date?_text {year month date : Nat} {yearRun monthRun dateRun : List Char}
    (years : Digits 4 year yearRun) (months : Digits 2 month monthRun)
    (dates : Digits 2 date dateRun) :
    date? (yearRun ++ '-' :: (monthRun ++ '-' :: dateRun)) = calendarDate? year month date := by
  obtain ⟨first, second, same, digit⟩ := months.two
  have notWeek : first ≠ 'W' := by
    rintro rfl
    exact absurd digit (by decide)
  have monthRead := months.read ('-' :: dateRun)
  have dateRead : digits? 2 dateRun = some (date, []) := by simpa using dates.read []
  subst same
  simp only [date?, years.read, Option.bind_eq_bind, Option.bind_some, List.cons_append,
    List.nil_append] at monthRead ⊢
  split
  · next more shape => simp_all
  · simp [monthRead, dateRead]

theorem dateLength_text {yearRun monthRun dateRun : List Char} {month : Nat}
    (years : yearRun.length = 4) (months : Digits 2 month monthRun) (dates : dateRun.length = 2)
    (rest : List Char) :
    dateLength (yearRun ++ '-' :: (monthRun ++ '-' :: (dateRun ++ 'T' :: rest))) = some 10 := by
  obtain ⟨first, second, same, digit⟩ := months.two
  have notWeek : first ≠ 'W' := by
    rintro rfl
    exact absurd digit (by decide)
  subst same
  match yearRun, years, dateRun, dates with
  | [_, _, _, _], _, [_, _], _ => simp [dateLength, notWeek]

/-- The text of a time of day. The fraction is left out where it is zero. -/
def fractionText (micros : Nat) : List Char := if micros = 0 then [] else '.' :: padded 6 micros

theorem isZoneMark_of_isDigit {c : Char} (digit : c.isDigit = true) : isZoneMark c = false := by
  have notPlus : c ≠ '+' := by rintro rfl; exact absurd digit (by decide)
  have notMinus : c ≠ '-' := by rintro rfl; exact absurd digit (by decide)
  have notUtc : c ≠ 'Z' := by rintro rfl; exact absurd digit (by decide)
  simp [isZoneMark, notPlus, notMinus, notUtc]

theorem fraction_digits {micros : Nat} (short : micros < 1000000) :
    Digits 6 micros (padded 6 micros) :=
  padded_digits (by decide) short

theorem fraction?_padded (hour minute second : Nat) {micros : Nat} (short : micros < 1000000) :
    fraction? hour minute second (padded 6 micros) =
      some ⟨hour, minute, second, micros, false⟩ := by
  have digits := fraction_digits short
  have read : digits? 6 (padded 6 micros) = some (micros, []) := by simpa using digits.read []
  simp [fraction?, digits.length, read]

theorem clock?_text {hour minute second micros : Nat} {hours minutes seconds : List Char}
    (hourDigits : Digits 2 hour hours) (minuteDigits : Digits 2 minute minutes)
    (secondDigits : Digits 2 second seconds) (short : micros < 1000000) :
    clock? (hours ++ ':' :: (minutes ++ ':' :: (seconds ++ fractionText micros))) =
      some ⟨hour, minute, second, micros, false⟩ := by
  have minuteField : next? true (':' :: (minutes ++ ':' :: (seconds ++ fractionText micros))) =
      some (.field (minutes ++ ':' :: (seconds ++ fractionText micros))) := by
    obtain ⟨first, last, rfl, _⟩ := minuteDigits.two
    rfl
  have secondField : next? true (':' :: (seconds ++ fractionText micros)) =
      some (.field (seconds ++ fractionText micros)) := by
    obtain ⟨first, last, rfl, _⟩ := secondDigits.two
    rfl
  simp only [clock?, hourDigits.read, Option.bind_eq_bind, Option.bind_some, List.head?_cons,
    beq_self_eq_true, minuteField, minuteDigits.read, secondField, secondDigits.read]
  by_cases whole : micros = 0
  · simp [fractionText, whole, next?]
  · have digits := fraction_digits short
    have fractionNext : next? true (fractionText micros) = some (.fraction (padded 6 micros)) := by
      rw [fractionText, if_neg whole]
      match run : padded 6 micros, digits with
      | [], digits => exact absurd digits.length (by simp)
      | _ :: _, _ => rfl
    simp only [fractionNext, Option.bind_some, fraction?_padded hour minute second short]

theorem not_isZoneMark_of_mem_clock {hours minutes seconds : List Char}
    {hour minute second micros : Nat} (hourDigits : Digits 2 hour hours)
    (minuteDigits : Digits 2 minute minutes) (secondDigits : Digits 2 second seconds)
    (short : micros < 1000000) :
    ∀ c ∈ hours ++ ':' :: (minutes ++ ':' :: (seconds ++ fractionText micros)),
      (!isZoneMark c) = true := by
  have digit {width value : Nat} {run : List Char} (digits : Digits width value run) :
      ∀ c ∈ run, (!isZoneMark c) = true := by
    intro c member
    simp [isZoneMark_of_isDigit (digits.digits c member)]
  have fraction : ∀ c ∈ fractionText micros, (!isZoneMark c) = true := by
    intro c member
    by_cases whole : micros = 0
    · simp [fractionText, whole] at member
    · rw [fractionText, if_neg whole] at member
      rcases List.mem_cons.mp member with point | later
      · rw [point]
        decide
      · exact digit (fraction_digits short) c later
  intro c member
  simp only [List.mem_append, List.mem_cons] at member
  rcases member with hour | colon | minute | colon | second | rest
  · exact digit hourDigits c hour
  · rw [colon]; decide
  · exact digit minuteDigits c minute
  · rw [colon]; decide
  · exact digit secondDigits c second
  · exact fraction c rest

theorem time?_text {hours minutes seconds : List Char} {hour minute second micros : Nat}
    (hourDigits : Digits 2 hour hours) (minuteDigits : Digits 2 minute minutes)
    (secondDigits : Digits 2 second seconds) (hour_le : hour ≤ 23) (minute_le : minute ≤ 59)
    (second_le : second ≤ 59) (short : micros < 1000000) :
    time? (hours ++ ':' :: (minutes ++ ':' :: (seconds ++ (fractionText micros ++ offsetText 0)))) =
      some ((hour * 3600 + minute * 60 + second) * 1000000 + micros, some 0) := by
  have split : hours ++ ':' :: (minutes ++ ':' :: (seconds ++ (fractionText micros ++ offsetText 0))) =
      (hours ++ ':' :: (minutes ++ ':' :: (seconds ++ fractionText micros))) ++ offsetText 0 := by
    simp
  have inClock := not_isZoneMark_of_mem_clock hourDigits minuteDigits secondDigits short
  have zoneFront : (offsetText 0).takeWhile (!isZoneMark ·) = [] := by decide
  have zoneBack : (offsetText 0).dropWhile (!isZoneMark ·) = offsetText 0 := by decide
  have zone : zone? (offsetText 0) = some 0 := by decide
  have valid : ¬ (23 < hour ∨ 59 < minute ∨ 59 < second) := by omega
  rw [split, time?, List.takeWhile_append_of_pos inClock, List.dropWhile_append_of_pos inClock]
  simp only [zoneFront, zoneBack, List.append_nil,
    clock?_text hourDigits minuteDigits secondDigits short, Option.bind_eq_bind, Option.bind_some,
    if_neg valid, zone]
  rfl

/-- The parts of a timestamp that its text shows. -/
theorem isoChars_utc {time : Timestamp} (utc : time.offset = some 0) {month date : Nat}
    (result : monthOfDay (time.wall / microsPerDay) = (month, date)) :
    time.isoChars =
      padded 4 (yearOfDay (time.wall / microsPerDay)) ++ '-' :: (padded 2 month ++
      '-' :: (padded 2 date ++ 'T' ::
      (padded 2 (time.wall % microsPerDay / 1000000 / 3600) ++ ':' ::
      (padded 2 (time.wall % microsPerDay / 1000000 / 60 % 60) ++ ':' ::
      (padded 2 (time.wall % microsPerDay / 1000000 % 60) ++
      (fractionText (time.wall % microsPerDay % 1000000) ++ offsetText 0)))))) := by
  simp [isoChars, result, utc, fractionText]

theorem ofWall?_wall (time : Timestamp) : ofWall? time.wall time.offset = some time := by
  have fits : (0 : Int) ≤ time.wall ∧ (time.wall : Int).toNat < microCount :=
    ⟨Int.natCast_nonneg _, by simpa using time.inRange⟩
  rw [ofWall?, dif_pos fits]
  rfl

/-- A text with a calendar date and a time is read part by part. -/
theorem ofIso?_text {year month date micros : Nat} {yearRun monthRun dateRun rest : List Char}
    {day : Int} {offset : Option Int} (years : Digits 4 year yearRun)
    (months : Digits 2 month monthRun) (dates : Digits 2 date dateRun)
    (onDay : calendarDate? year month date = some day) (inDay : time? rest = some (micros, offset)) :
    ofIso? (String.ofList (yearRun ++ '-' :: (monthRun ++ '-' :: (dateRun ++ 'T' :: rest)))) =
      ofWall? (day * microsPerDay + micros) offset := by
  have ten : (yearRun ++ '-' :: (monthRun ++ '-' :: dateRun)).length = 10 := by
    simp [years.length, months.length, dates.length]
  have split : yearRun ++ '-' :: (monthRun ++ '-' :: (dateRun ++ 'T' :: rest)) =
      (yearRun ++ '-' :: (monthRun ++ '-' :: dateRun)) ++ 'T' :: rest := by simp
  have length := dateLength_text years.length months dates.length rest
  rw [ofIso?, String.toList_ofList, length, split]
  simp only [Option.bind_eq_bind, Option.bind_some, List.take_left' ten, List.drop_left' ten,
    date?_text years months dates, onDay, inDay]

/-- Writing a UTC timestamp loses nothing. -/
theorem ofIso?_iso {time : Timestamp} (utc : time.offset = some 0) :
    ofIso? time.iso = some time := by
  obtain ⟨day, day_eq⟩ : ∃ day, day = time.wall / microsPerDay := ⟨_, rfl⟩
  obtain ⟨inDay, inDay_eq⟩ : ∃ inDay, inDay = time.wall % microsPerDay := ⟨_, rfl⟩
  have whole : day * microsPerDay + inDay = time.wall := by
    rw [day_eq, inDay_eq]
    exact Nat.div_add_mod' _ _
  have day_lt : day < dayCount := by
    rw [day_eq]
    exact (Nat.div_lt_iff_lt_mul (by decide)).mpr time.inRange
  have inDay_lt : inDay < 86400000000 := by
    rw [inDay_eq]
    exact Nat.mod_lt _ (by decide)
  obtain ⟨month, date, result, _, month_le, _, date_le, _⟩ := monthOfDay_spec day
  have length_le := daysInMonth_le (yearOfDay day) month
  have year_le := yearOfDay_le day_lt
  -- each field is in its range, so it is written in all its digits and no more
  have years : Digits 4 (yearOfDay day) (padded 4 (yearOfDay day)) :=
    padded_digits (by decide) (by omega)
  have months : Digits 2 month (padded 2 month) := padded_digits (by decide) (by omega)
  have dates : Digits 2 date (padded 2 date) := padded_digits (by decide) (by omega)
  have hours : Digits 2 (inDay / 1000000 / 3600) (padded 2 (inDay / 1000000 / 3600)) :=
    padded_digits (by decide) (by omega)
  have minutes : Digits 2 (inDay / 1000000 / 60 % 60) (padded 2 (inDay / 1000000 / 60 % 60)) :=
    padded_digits (by decide) (by omega)
  have seconds : Digits 2 (inDay / 1000000 % 60) (padded 2 (inDay / 1000000 % 60)) :=
    padded_digits (by decide) (by omega)
  have clock := time?_text hours minutes seconds (by omega) (by omega) (by omega)
    (show inDay % 1000000 < 1000000 by omega)
  have parts : (inDay / 1000000 / 3600 * 3600 + inDay / 1000000 / 60 % 60 * 60 +
      inDay / 1000000 % 60) * 1000000 + inDay % 1000000 = inDay := by omega
  rw [parts] at clock
  have chars := isoChars_utc utc (day_eq ▸ result)
  rw [← day_eq, ← inDay_eq] at chars
  rw [iso, chars, ofIso?_text years months dates (calendarDate?_of_day day result) clock]
  have wall : (day : Int) * microsPerDay + inDay = time.wall := by
    rw [← whole]
    simp
  rw [wall, ← utc, ofWall?_wall]

/-- The time as a UTC clock writes it. -/
def utcIso (time : Timestamp) : String := (time.utc?.map iso).getD ""

theorem instant_of_utc? {time utc : Timestamp} (shown : time.utc? = some utc) :
    utc.instant = time.instant ∧ utc.offset = some 0 := by
  rw [utc?, ofWall?] at shown
  split at shown
  next fits =>
    cases shown
    refine ⟨?_, rfl⟩
    rw [instant, Int.toNat_of_nonneg fits.1]
    exact Int.sub_zero _
  next => cases shown

theorem utc?_of_utc? {time utc : Timestamp} (shown : time.utc? = some utc) :
    utc.utc? = some utc := by
  obtain ⟨same, aligned⟩ := instant_of_utc? shown
  rw [utc?, same]
  exact shown

theorem utcIso_of_utc? {time utc : Timestamp} (shown : time.utc? = some utc) :
    time.utcIso = utc.iso := by
  rw [utcIso, shown]
  rfl

theorem ofIso?_utcIso {time utc : Timestamp} (shown : time.utc? = some utc) :
    ofIso? time.utcIso = some utc := by
  rw [utcIso_of_utc? shown]
  exact ofIso?_iso (instant_of_utc? shown).2

theorem utcIso_ne_empty {time utc : Timestamp} (shown : time.utc? = some utc) :
    time.utcIso ≠ "" := by
  intro empty
  have read := ofIso?_utcIso shown
  rw [empty] at read
  cases read

end BuildRules.Timestamp
