import RequestMeter.Timestamp.Text
import RequestMeter.Proofs.Numeral
import RequestMeter.Proofs.Timestamp.Calendar

/-! # Reading timestamps back

A moment that was written is read back as it was, in every year and with every fraction, leap seconds
at the end of a minute included; a leap second elsewhere is read back as the second after it.  The
reader accepts much more than the writer makes, so each part is shown to end where the next one
starts.
-/
namespace RequestMeter.Timestamp

/-! ## Fields -/

theorem isSpace_charOf {d : Nat} (h : d < 10) : isSpace (Numeral.charOf d) = false := by
  interval_cases d <;> rfl

theorem skipSpace_cons {c : Char} (h : isSpace c = false) (cs : List Char) :
    skipSpace (c :: cs) = c :: cs := by
  rw [skipSpace, List.dropWhile_cons_of_neg (by simp [h])]

theorem exists_decimalPadded_append (width n : Nat) (rest : List Char) :
    ∃ d cs, d < 10 ∧ Numeral.decimalPadded width n ++ rest = Numeral.charOf d :: cs :=
  Numeral.exists_map_charOf_append (Numeral.padLeft_digits_ne_nil 10 width n)
    (fun _ => Numeral.lt_of_mem_padLeft (by decide)) rest

theorem skipSpace_decimalPadded (width n : Nat) (rest : List Char) :
    skipSpace (Numeral.decimalPadded width n ++ rest) = Numeral.decimalPadded width n ++ rest := by
  obtain ⟨d, cs, hd, head⟩ := exists_decimalPadded_append width n rest
  rw [head, skipSpace_cons (isSpace_charOf hd)]

/-- Digits that were read stand for their value, unless there are none. -/
theorem number?_of_run {limit : Option Nat} {cs rest : List Char} {ds : List Nat}
    (h : Numeral.run Numeral.digit? limit cs = (ds, rest)) (hn : ds ≠ []) :
    number? limit cs = some (Numeral.value 10 ds, rest) := by
  rw [number?, h]
  cases ds with
  | nil => exact absurd rfl hn
  | cons d ds => rfl

theorem number?_decimalPadded {width n : Nat} {limit : Option Nat} {rest : List Char}
    (hl : limit = some width ∧ 0 < width ∧ n < 10 ^ width ∨ limit = none ∧ Numeral.NoDigit rest) :
    number? limit (Numeral.decimalPadded width n ++ rest) = some (n, rest) := by
  have run : Numeral.run Numeral.digit? limit (Numeral.decimalPadded width n ++ rest) =
      (Numeral.padLeft width (Numeral.digits 10 n), rest) := by
    rcases hl with ⟨rfl, hw, hn⟩ | ⟨rfl, hr⟩
    · exact Numeral.run_decimalPadded hw hn
    · exact Numeral.run_append (fun _ => Numeral.lt_of_mem_padLeft (by decide))
        (fun _ h => by cases h) (.inr hr)
  rw [number?_of_run run (Numeral.padLeft_digits_ne_nil 10 width n), Numeral.value_padLeft,
    Numeral.value_digits (by decide)]

theorem field?_decimalPadded {n : Nat} (h : n < 100) (rest : List Char) :
    field? (Numeral.decimalPadded 2 n ++ rest) = some (n, rest) := by
  rw [field?, skipSpace_decimalPadded]
  exact number?_decimalPadded (.inl ⟨rfl, by decide, h⟩)

theorem mark?_cons {c : Char} (h : isSpace c = false) (cs : List Char) :
    mark? c (c :: cs) = some cs := by
  rw [mark?, skipSpace_cons h]
  exact if_pos rfl

/-! ## Year, fraction and offset -/

theorem year?_of_digit {c : Char} {cs : List Char} (hs : isSpace c = false)
    (hm : c ≠ '-' ∧ c ≠ '+') :
    year? (c :: cs) = (number? (some 4) (c :: cs)).map fun (n, r) => ((n : Int), r) := by
  rw [year?, skipSpace_cons hs]
  split
  · rename_i he
    cases he
    exact absurd rfl hm.1
  · rename_i he
    cases he
    exact absurd rfl hm.2
  · rfl

theorem charOf_ne_sign {d : Nat} (h : d < 10) :
    Numeral.charOf d ≠ '-' ∧ Numeral.charOf d ≠ '+' := by
  interval_cases d <;> decide

/-- A written year ends where something other than a digit stands. -/
theorem year?_writeYear (year : Int) {rest : List Char} (hr : Numeral.NoDigit rest) :
    year? (writeYear year ++ rest) = some (year, rest) := by
  unfold writeYear
  by_cases plain : 0 ≤ year ∧ year ≤ 9999
  · rw [if_pos plain, List.nil_append]
    have number : number? (some 4) (Numeral.decimalPadded 4 year.natAbs ++ rest) =
        some (year.natAbs, rest) :=
      number?_decimalPadded (.inl ⟨rfl, by decide, by omega⟩)
    obtain ⟨d, cs, hd, head⟩ := exists_decimalPadded_append 4 year.natAbs rest
    rw [head] at number ⊢
    rw [year?_of_digit (isSpace_charOf hd) (charOf_ne_sign hd), number]
    simp only [Option.map_some, Int.natAbs_of_nonneg plain.1]
  · rw [if_neg plain, List.append_assoc]
    have number : number? none (Numeral.decimalPadded 4 year.natAbs ++ rest) =
        some (year.natAbs, rest) := number?_decimalPadded (.inr ⟨rfl, hr⟩)
    by_cases negative : year < 0
    · have value : -(year.natAbs : Int) = year := by omega
      rw [if_pos negative, List.cons_append, List.nil_append, year?, skipSpace_cons rfl]
      simp only [number, Option.map_some, value]
    · have value : (year.natAbs : Int) = year := by omega
      rw [if_neg negative, List.cons_append, List.nil_append, year?, skipSpace_cons rfl]
      simp only [number, Option.map_some, value]

theorem dropWhile_of_noDigit {cs : List Char} (h : Numeral.NoDigit cs) :
    (cs.dropWhile fun c => (Numeral.digit? c).isSome) = cs := by
  cases cs with
  | nil => rfl
  | cons c cs => rw [List.dropWhile_cons_of_neg (by simp [Numeral.noDigit_cons.mp h])]

/-- Up to nine digits after the point are billionths, the missing ones being zeros. -/
theorem fraction?_decimalPadded {width n : Nat} {rest : List Char} (hw : 0 < width) (h9 : width ≤ 9)
    (hn : n < 10 ^ width) (hr : Numeral.NoDigit rest) :
    fraction? ('.' :: (Numeral.decimalPadded width n ++ rest)) =
      some (n * 10 ^ (9 - width), rest) := by
  have length := Numeral.length_padLeft (Numeral.length_digits_le (by decide) hw hn)
  have run : Numeral.run Numeral.digit? (some 9) (Numeral.decimalPadded width n ++ rest) =
      (Numeral.padLeft width (Numeral.digits 10 n), rest) := by
    apply Numeral.run_append (fun _ => Numeral.lt_of_mem_padLeft (by decide)) _ (.inr hr)
    intro k hk
    cases hk
    rwa [length]
  have value : Numeral.value 10 (Numeral.padLeft width (Numeral.digits 10 n)) = n := by
    rw [Numeral.value_padLeft, Numeral.value_digits (by decide)]
  rw [fraction?, run]
  split
  · rename_i he
    exact absurd (congrArg Prod.fst he) (Numeral.padLeft_digits_ne_nil 10 width n)
  · rename_i he
    cases he
    rw [value, length, dropWhile_of_noDigit hr]
    rfl

theorem fraction?_writeFraction {nano : Nat} (h : nano < 1000000000) (rest : List Char) :
    fraction? (writeFraction nano ++ 'Z' :: rest) = some (nano, 'Z' :: rest) := by
  have noDigit : Numeral.NoDigit ('Z' :: rest) := Numeral.noDigit_cons.mpr (by decide)
  unfold writeFraction
  split_ifs with zero millis micros
  · rw [zero]
    rfl
  · rw [List.cons_append, fraction?_decimalPadded (by decide) (by decide) (by omega) noDigit,
      show nano / 1000000 * 10 ^ (9 - 3) = nano by omega]
  · rw [List.cons_append, fraction?_decimalPadded (by decide) (by decide) (by omega) noDigit,
      show nano / 1000 * 10 ^ (9 - 6) = nano by omega]
  · rw [List.cons_append, fraction?_decimalPadded (by decide) (by decide) (by omega) noDigit,
      show nano * 10 ^ (9 - 9) = nano by omega]

/-! ## Leap seconds -/

/-- A leap second, if the moment is in one, stands at the end of a minute. -/
def Regular (t : Timestamp) : Prop := t.isLeapSecond = true → t.second % 60 = 59

instance (t : Timestamp) : Decidable t.Regular :=
  inferInstanceAs (Decidable (t.isLeapSecond = true → t.second % 60 = 59))

/-- The moment with a leap second elsewhere carried into the next second. -/
def carried (t : Timestamp) : Timestamp :=
  if h : t.isLeapSecond = true ∧ t.second % 60 ≠ 59 then
    { t with
      second := t.second + 1
      nano := t.nano - 1000000000
      second_lt := by have := t.second_lt; omega
      nano_lt := by have := t.nano_lt; omega }
  else t

variable {t : Timestamp}

theorem isLeapSecond_iff : t.isLeapSecond = true ↔ 1000000000 ≤ t.nano := by simp [isLeapSecond]

theorem isLeapSecond_eq_false_iff : t.isLeapSecond = false ↔ t.nano < 1000000000 := by
  simp [isLeapSecond]

theorem carried_of_regular (h : t.Regular) : t.carried = t :=
  dif_neg fun ⟨leap, last⟩ => last (h leap)

/-- Outside the end of a minute a leap second is carried into the second after it. -/
theorem carried_of_not_regular (h : ¬ t.Regular) :
    t.carried.day = t.day ∧ t.carried.second = t.second + 1 ∧
      t.carried.nano = t.nano - 1000000000 ∧ t.carried.isLeapSecond = false := by
  rw [Regular, Classical.not_imp] at h
  have small := t.nano_lt
  rw [isLeapSecond_eq_false_iff, carried, dif_pos h]
  exact ⟨rfl, rfl, rfl, by dsimp only; omega⟩

theorem regular_carried (t : Timestamp) : t.carried.Regular := by
  by_cases h : t.Regular
  · rwa [carried_of_regular h]
  · intro leap
    rw [(carried_of_not_regular h).2.2.2] at leap
    cases leap

theorem carried_eq_self_iff : t.carried = t ↔ t.Regular := by
  refine ⟨fun same => ?_, carried_of_regular⟩
  by_contra h
  have next := (carried_of_not_regular h).2.1
  rw [same] at next
  omega

/-! ## Moments -/

theorem ofParts?_self (t : Timestamp) : ofParts? t.day t.second t.nano = some t :=
  dif_pos ⟨⟨t.first_le, t.le_last⟩, t.second_lt, t.nano_lt⟩

/-- The second that is written, one further for a leap second. -/
def shownSecond (t : Timestamp) : Nat := t.second % 60 + if t.isLeapSecond then 1 else 0

/-- What the written second stands for is the second of the moment, and a written 60 is the second's
worth of nanoseconds that the fraction leaves out. -/
theorem shownSecond_spec (h : t.Regular) :
    t.shownSecond ≤ 60 ∧ (if t.shownSecond = 60 then 59 else t.shownSecond) = t.second % 60 ∧
      (if t.shownSecond = 60 then t.nano % 1000000000 + 1000000000 else t.nano % 1000000000) =
        t.nano := by
  have bound := t.nano_lt
  cases leap : t.isLeapSecond with
  | true =>
    have shown : t.shownSecond = 60 := by rw [shownSecond, h leap, leap, if_pos rfl]
    rw [isLeapSecond_iff] at leap
    rw [if_pos shown, if_pos shown, shown]
    have last := h (isLeapSecond_iff.mpr leap)
    omega
  | false =>
    have shown : t.shownSecond = t.second % 60 := by
      rw [shownSecond, leap, if_neg (by decide), Nat.add_zero]
    rw [isLeapSecond_eq_false_iff] at leap
    have less : t.shownSecond ≠ 60 := by omega
    rw [if_neg less, if_neg less, shown]
    omega

/-- The clock reading of a moment names that moment. -/
theorem ofClock?_write (h : t.Regular) :
    ofClock? (Date.ofDayNumber t.day) (t.second / 3600) (t.second / 60 % 60) t.shownSecond
      (t.nano % 1000000000) 0 = some t := by
  have bound := t.second_lt
  have year := Date.ofDayNumber_year_mem t.first_le t.le_last
  obtain ⟨high, second, nano⟩ := shownSecond_spec h
  have whole : t.second / 3600 * 3600 + t.second / 60 % 60 * 60 + t.second % 60 = t.second := by
    omega
  rw [ofClock?, if_pos ⟨Date.isValid_ofDayNumber _, year.1, year.2, by omega, by omega, high⟩]
  simp only [second, nano, whole, Date.toDayNumber_ofDayNumber, Int.sub_zero]
  have day : t.day + (t.second : Int) / 86400 = t.day := by omega
  have within : ((t.second : Int) % 86400).toNat = t.second := by omega
  rw [day, within, ofParts?_self]

theorem bind_eq_some {α β : Type} {part : Option α} {rest : α → Option β} {a : α} {b : β}
    (h : part = some a) (hr : rest a = some b) : (part >>= rest) = some b :=
  Option.bind_eq_some_iff.mpr ⟨a, h, hr⟩

/-- A written moment is read back as it was, unless it is in a leap second before the end of a
minute. -/
theorem read?_write_of_regular (h : t.Regular) : read? t.write = some t := by
  have bound := t.second_lt
  have month := field?_decimalPadded (Date.ofDayNumber_month_lt t.day)
  have day := field?_decimalPadded (Date.ofDayNumber_day_lt t.day)
  have hour := field?_decimalPadded (show t.second / 3600 < 100 by omega)
  have minute := field?_decimalPadded (show t.second / 60 % 60 < 100 by omega)
  have second := field?_decimalPadded (show t.shownSecond < 100 by have := shownSecond_spec h; omega)
  have nano := fraction?_writeFraction (Nat.mod_lt t.nano (show 0 < 1000000000 by decide))
  -- the marks between the fields
  have noDigit (cs : List Char) : Numeral.NoDigit ('-' :: cs) := Numeral.noDigit_cons.mpr rfl
  have dash := mark?_cons (show isSpace '-' = false from rfl)
  have colon := mark?_cons (show isSpace ':' = false from rfl)
  have dateEnd (cs : List Char) : dateEnd? ('T' :: cs) = some cs := rfl
  have zone (cs : List Char) : offset? (skipSpace ('Z' :: cs)) = some (0, cs) := rfl
  have last : skipSpace [] = [] := rfl
  have text : t.write = writeYear (Date.ofDayNumber t.day).year ++
      '-' :: (Numeral.decimalPadded 2 (Date.ofDayNumber t.day).month ++
      '-' :: (Numeral.decimalPadded 2 (Date.ofDayNumber t.day).day ++
      'T' :: (Numeral.decimalPadded 2 (t.second / 3600) ++
      ':' :: (Numeral.decimalPadded 2 (t.second / 60 % 60) ++
      ':' :: (Numeral.decimalPadded 2 t.shownSecond ++
      (writeFraction (t.nano % 1000000000) ++ ['Z'])))))) := by
    simp only [write, shownSecond, List.append_assoc, List.cons_append]
  rw [text]
  exact bind_eq_some (year?_writeYear _ (noDigit _)) <|
    bind_eq_some (dash _) <| bind_eq_some (month _) <|
    bind_eq_some (dash _) <| bind_eq_some (day _) <|
    bind_eq_some (dateEnd _) <| bind_eq_some (hour _) <|
    bind_eq_some (colon _) <| bind_eq_some (minute _) <|
    bind_eq_some (colon _) <| bind_eq_some (second _) <|
    bind_eq_some (nano _) <| bind_eq_some (zone _) <| (if_pos last).trans (ofClock?_write h)

/-- Carrying a leap second does not show in the text. -/
theorem write_carried (t : Timestamp) : t.carried.write = t.write := by
  by_cases h : t.Regular
  · rw [carried_of_regular h]
  · obtain ⟨day, second, nano, plain⟩ := carried_of_not_regular h
    rw [Regular, Classical.not_imp] at h
    obtain ⟨leap, notLast⟩ := h
    have high := isLeapSecond_iff.mp leap
    have low := t.nano_lt
    -- The second after it is in the same minute.
    have hour : (t.second + 1) / 3600 = t.second / 3600 := by omega
    have minute : (t.second + 1) / 60 = t.second / 60 := by omega
    have shown : (t.second + 1) % 60 = t.second % 60 + 1 := by omega
    have fraction : (t.nano - 1000000000) % 1000000000 = t.nano % 1000000000 := by omega
    simp only [write, day, second, nano, plain, leap, hour, minute, shown, fraction, if_true,
      Bool.false_eq_true, if_false, Nat.add_zero]

/-- What is read back of a written moment. -/
theorem read?_write (t : Timestamp) : read? t.write = some t.carried := by
  rw [← write_carried]
  exact read?_write_of_regular (regular_carried t)

/-! ## What a text can name -/

theorem fraction?_lt {cs rest : List Char} {nano : Nat} (h : fraction? cs = some (nano, rest)) :
    nano < 1000000000 := by
  rw [fraction?.eq_def] at h
  split at h
  next cs =>
    obtain ⟨decimal, short⟩ := Numeral.run_decimal (some 9) cs
    split at h
    next => cases h
    next ds after _ read =>
      rw [read] at decimal short
      have few : ds.length ≤ 9 := short 9 rfl
      obtain ⟨rfl, -⟩ := Prod.mk.inj (Option.some.inj h)
      calc Numeral.value 10 ds * 10 ^ (9 - ds.length)
          < 10 ^ ds.length * 10 ^ (9 - ds.length) :=
            Nat.mul_lt_mul_of_pos_right (Numeral.value_lt decimal) (Nat.pow_pos (by decide))
        _ = 10 ^ 9 := by rw [← Nat.pow_add, Nat.add_sub_cancel' few]
        _ = 1000000000 := by decide
  next =>
    obtain ⟨rfl, -⟩ := Prod.mk.inj (Option.some.inj h)
    decide

theorem clock?_dvd {cs rest : List Char} {seconds : Nat} (h : clock? cs = some (seconds, rest)) :
    60 ∣ seconds := by
  rw [clock?.eq_def] at h
  split at h
  next =>
    simp only [Option.bind_eq_bind, Option.bind_eq_some_iff] at h
    obtain ⟨_, -, _, -, h⟩ := h
    split at h
    next =>
      simp only [Option.bind_eq_some_iff] at h
      obtain ⟨_, -, _, -, h⟩ := h
      split at h
      next =>
        obtain ⟨rfl, -⟩ := Prod.mk.inj (Option.some.inj h)
        omega
      next => cases h
    next => cases h
  next => cases h

/-- Offsets are whole minutes. -/
theorem offset?_dvd {cs rest : List Char} {offset : Int} (h : offset? cs = some (offset, rest)) :
    60 ∣ offset := by
  have zero {after : List Char} (h : some ((0 : Int), after) = some (offset, rest)) : 60 ∣ offset := by
    obtain ⟨rfl, -⟩ := Prod.mk.inj (Option.some.inj h)
    exact Int.dvd_zero _
  rw [offset?.eq_def] at h
  split at h
  next => cases h
  next c cs =>
    split at h
    next => exact zero h
    next =>
      split at h
      next =>
        split at h
        next => exact zero (Option.ite_none_right_eq_some.mp h).2
        next => cases h
      next =>
        obtain ⟨-, h⟩ := Option.ite_none_right_eq_some.mp h
        obtain ⟨⟨seconds, after⟩, read, h⟩ := Option.bind_eq_some_iff.mp h
        have whole := clock?_dvd read
        obtain ⟨-, h⟩ := Option.ite_none_right_eq_some.mp h
        obtain ⟨rfl, -⟩ := Prod.mk.inj (Option.some.inj h)
        split <;> omega

/-- With an offset of whole minutes second 60 is at the end of a minute. -/
theorem regular_ofClock? {date : Date} {hour minute second nano : Nat} {offset : Int}
    (small : nano < 1000000000) (whole : 60 ∣ offset)
    (h : ofClock? date hour minute second nano offset = some t) : t.Regular := by
  rw [ofClock?, Option.ite_none_right_eq_some] at h
  obtain ⟨-, h⟩ := h
  simp only [ofParts?, Option.dite_none_right_eq_some, Option.some.injEq] at h
  obtain ⟨-, rfl⟩ := h
  intro leap
  rw [isLeapSecond_iff] at leap
  dsimp only at leap ⊢
  split at leap
  next last =>
    rw [if_pos last]
    omega
  next => omega

theorem regular_of_read? {cs : List Char} (h : read? cs = some t) : t.Regular := by
  rw [read?] at h
  -- the eleven parts before the fraction
  iterate 11 obtain ⟨_, -, h⟩ := Option.bind_eq_some_iff.mp h
  obtain ⟨⟨nano, _⟩, fraction, h⟩ := Option.bind_eq_some_iff.mp h
  obtain ⟨⟨offset, _⟩, zone, h⟩ := Option.bind_eq_some_iff.mp h
  exact regular_ofClock? (fraction?_lt fraction) (offset?_dvd zone)
    (Option.ite_none_right_eq_some.mp h).2

end RequestMeter.Timestamp
