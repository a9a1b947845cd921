import PluginSandbox.Proofs.Audit.Record

/-!
# Time stamps are read back

A time stamp is read back from its written form if its year has four digits (`TimeFormat.utc_reads`).

The calendar has to be turned round for that.  A day of a cycle of 400 years falls into one of four years of a century
(`CalendarDay.InCycle`), and the quotients that the day is divided into find this year (`CalendarDay.yearOfCycle_eq`):
they take a day from each four years and give one back for each century.  So the day of the calendar that a number of
days is made into stands for that number (`CalendarDay.epochDays_ofEpochDays`).

A leap second is written as the sixty-first of its minute, so nanoseconds that go on beyond a second are told from
those of the next second only behind the last one of a minute (`Timestamp.InCalendar`).
-/

namespace PluginSandbox

/-! ## The calendar -/

namespace CalendarDay

/-- A day of a cycle of 400 years is a day of one of four years, which are some four of a century.  The days of a year
are counted from March on, and a century does not end with a leap day unless it is the last one. -/
structure InCycle (dayOfCycle c q y d : Nat) : Prop where
  days : dayOfCycle = 36524 * c + 1461 * q + 365 * y + d
  century : c ≤ 3
  four : q ≤ 24
  year : y ≤ 3
  day : d ≤ 365
  leap : d = 365 → y = 3 ∧ (q = 24 → c = 3)

/-- A number is some multiple of a size and a rest.  Where the multiples are used up, the rest is as large as the size
itself. -/
theorem exists_quotient {n size most : Nat} (hsize : 0 < size) (h : n ≤ size * most + size) :
    ∃ a r, n = size * a + r ∧ a ≤ most ∧ r ≤ size ∧ (r = size → a = most) := by
  have hrest := Nat.mod_lt n hsize
  by_cases hmost : n / size ≤ most
  · exact ⟨n / size, n % size, (Nat.div_add_mod n size).symm, hmost, Nat.le_of_lt hrest,
      fun hr => absurd hr (Nat.ne_of_lt hrest)⟩
  · have hall : size * (most + 1) ≤ n :=
      Nat.le_trans (Nat.mul_le_mul_left size (Nat.not_le.1 hmost)) (Nat.mul_div_le n size)
    exact ⟨most, size, Nat.le_antisymm h hall, Nat.le_refl most, Nat.le_refl size, fun _ => rfl⟩

theorem exists_inCycle {n : Nat} (h : n < 146097) : ∃ c q y d, InCycle n c q y d := by
  obtain ⟨c, r, hn, hc, hr, hcentury⟩ := @exists_quotient n 36524 3 (by decide) (by omega)
  obtain ⟨y, d, hrest, hy, hd, hyear⟩ := @exists_quotient (r % 1461) 365 3 (by decide) (by omega)
  exact ⟨c, r / 1461, y, d, by omega, hc, by omega, hy, hd, by omega⟩

section
variable {n c q y d : Nat}

theorem InCycle.lt (h : InCycle n c q y d) : n < 146097 ∧ 100 * c + 4 * q + y < 400 := by
  obtain ⟨hn, hc, hq, hy, hd, hleap⟩ := h
  omega

/-- The year that a day of a cycle is found in.  On the last day the quotient counts a fifth century, which is taken
back. -/
theorem yearOfCycle_eq (h : InCycle n c q y d) :
    (n - n / 1460 + n / 36524 - n / 146096) / 365 = 100 * c + 4 * q + y := by
  obtain ⟨hn, hc, hq, hy, hd, hleap⟩ := h
  by_cases hlast : n = 146096
  · omega
  · have hcentury : n / 36524 = c := by omega
    have hcycle : n / 146096 = 0 := by omega
    have hfours : n / 1460 = 25 * c + q + (24 * c + q + 365 * y + d) / 1460 := by omega
    omega

/-- The days of a cycle before a year of it, and those of the year. -/
theorem InCycle.days_eq (h : InCycle n c q y d) :
    365 * (100 * c + 4 * q + y) + (100 * c + 4 * q + y) / 4 - (100 * c + 4 * q + y) / 100 + d = n := by
  obtain ⟨hn, hc, hq, hy, hd, hleap⟩ := h
  have hfours : (100 * c + 4 * q + y) / 4 = 25 * c + q := by omega
  have hcenturies : (100 * c + 4 * q + y) / 100 = c := by omega
  omega

theorem ofEpochDays_eq {days cycle : Int} (hdays : days + 719468 = 146097 * cycle + n) (h : InCycle n c q y d) :
    ofEpochDays days = ofYearDay ((100 * c + 4 * q + y : Nat) + 400 * cycle) d := by
  obtain ⟨hn, _⟩ := h.lt
  have hcycle : (days + 719468) / 146097 = cycle := by omega
  have hday : ((days + 719468) % 146097).toNat = n := by omega
  simp only [ofEpochDays, hcycle, hday, yearOfCycle_eq h, Nat.sub_eq_of_eq_add' h.days_eq.symm]

end

/-- The months and days of a calendar. -/
theorem bounds_ofYearDay (year : Int) {d : Nat} (hd : d ≤ 365) :
    (ofYearDay year d).month ≤ 12 ∧ (ofYearDay year d).day ≤ 31 := by
  have hmarch : (5 * d + 2) / 153 ≤ 11 := by omega
  refine ⟨?_, show d - (153 * ((5 * d + 2) / 153) + 2) / 5 + 1 ≤ 31 by omega⟩
  show (if (5 * d + 2) / 153 < 10 then (5 * d + 2) / 153 + 3 else (5 * d + 2) / 153 - 9) ≤ 12
  split <;> omega

theorem epochDays_ofYearDay (year : Int) {d : Nat} (hd : d ≤ 365) :
    (ofYearDay year d).epochDays = year / 400 * 146097 +
      ((365 * (year % 400).toNat + (year % 400).toNat / 4 - (year % 400).toNat / 100 + d : Nat) : Int) - 719468 := by
  have hmarch : (5 * d + 2) / 153 ≤ 11 := by omega
  rw [epochDays, ofYearDay]
  by_cases h : (5 * d + 2) / 153 < 10
  · simp only [if_pos h, if_neg (show ¬ (5 * d + 2) / 153 + 3 ≤ 2 by omega), Int.add_zero]
    omega
  · simp only [if_neg h, if_pos (show (5 * d + 2) / 153 - 9 ≤ 2 by omega), Int.add_sub_cancel]
    omega

/-- The day of the calendar that a number of days is split into. -/
theorem exists_ofYearDay (days : Int) : ∃ year d, d ≤ 365 ∧ ofEpochDays days = ofYearDay year d ∧
    (ofYearDay year d).epochDays = days := by
  have hn : ((days + 719468) % 146097).toNat < 146097 := by omega
  obtain ⟨c, q, y, d, h⟩ := exists_inCycle hn
  have hdays : days + 719468 = 146097 * ((days + 719468) / 146097) + ((days + 719468) % 146097).toNat := by omega
  refine ⟨_, d, h.day, ofEpochDays_eq hdays h, ?_⟩
  have hlt := h.lt
  generalize (days + 719468) / 146097 = cycle at hdays ⊢
  have hyear : ((100 * c + 4 * q + y : Nat) + 400 * cycle) % 400 = (100 * c + 4 * q + y : Nat) := by omega
  have hcycle : ((100 * c + 4 * q + y : Nat) + 400 * cycle) / 400 = cycle := by omega
  rw [epochDays_ofYearDay _ h.day, hyear, hcycle, Int.toNat_natCast, h.days_eq]
  omega

/-- A number of days is that of the day of the calendar that it is split into. -/
theorem epochDays_ofEpochDays (days : Int) : (ofEpochDays days).epochDays = days := by
  obtain ⟨year, d, _, hsplit, hdays⟩ := exists_ofYearDay days
  rw [hsplit, hdays]

theorem bounds_ofEpochDays (days : Int) : (ofEpochDays days).month ≤ 12 ∧ (ofEpochDays days).day ≤ 31 := by
  obtain ⟨year, d, hd, hsplit, _⟩ := exists_ofYearDay days
  rw [hsplit]
  exact bounds_ofYearDay year hd

end CalendarDay

/-! ## Digits -/

section
variable {width n : Nat}

theorem toList_zeroPadded (width n : Nat) : (zeroPadded width n).toList = (Nat.toDigits 10 n).leftpad width '0' :=
  String.toList_ofList

theorem length_zeroPadded (hwidth : 0 < width) (h : n < Nat.pow 10 width) :
    (zeroPadded width n).toList.length = width := by
  rw [toList_zeroPadded, List.length_leftpad]
  exact Nat.max_eq_left ((Nat.length_toDigits_le_iff (by decide) hwidth).2 h)

theorem isDigit_zeroPadded (width n : Nat) : (zeroPadded width n).toList.all Char.isDigit = true := by
  rw [toList_zeroPadded, List.all_eq_true, List.leftpad, List.forall_mem_append]
  refine ⟨fun c hc => ?_, fun c hc => Nat.isDigit_of_mem_toDigits (by decide) (by decide) hc⟩
  rw [List.eq_of_mem_replicate hc]
  rfl

theorem ofDigitChars_zeroPadded (width n : Nat) : Nat.ofDigitChars 10 (zeroPadded width n).toList 0 = n := by
  rw [toList_zeroPadded, List.leftpad, Nat.ofDigitChars_append, Nat.ofDigitChars_replicate_zero, Nat.mul_zero,
    Nat.ofDigitChars_toDigits (by decide) (by decide)]

namespace Timestamp

theorem behind?_cons (c : Char) (rest : List Char) : behind? c (c :: rest) = some rest :=
  if_pos rfl

/-- A number is read back where it stands. -/
theorem digits?_zeroPadded (hwidth : 0 < width) (h : n < Nat.pow 10 width) (rest : List Char) :
    digits? width ((zeroPadded width n).toList ++ rest) = some (n, rest) := by
  have hlength := length_zeroPadded hwidth h
  rw [digits?, List.take_left' hlength, List.drop_left' hlength]
  simp only [hlength, isDigit_zeroPadded, ofDigitChars_zeroPadded, and_self, if_true]

theorem nanosOfText?_zeroPadded (hwidth : 0 < width) (h : n < Nat.pow 10 width) :
    nanosOfText? (".".toList ++ (zeroPadded width n).toList ++ ['Z']) = some (n * Nat.pow 10 (9 - width)) := by
  show nanosOfText? ('.' :: ((zeroPadded width n).toList ++ ['Z'])) = _
  simp only [nanosOfText?, List.length_append, length_zeroPadded hwidth h, List.length_singleton, Nat.add_sub_cancel,
    digits?_zeroPadded hwidth h]
  rfl

/-- The digits behind the point of a second are read back, however many of them are left out. -/
theorem nanosOfText?_secondFraction {nanos : Nat} (h : nanos < nanosInSecond) :
    nanosOfText? ((secondFraction nanos).toList ++ ['Z']) = some nanos := by
  rw [nanosInSecond] at h
  rw [secondFraction]
  split
  · next hzero =>
    rw [hzero]
    rfl
  split
  · next hmillis =>
    have hread : nanos / 1000000 * 1000000 = nanos := by omega
    rw [String.toList_append]
    exact (@nanosOfText?_zeroPadded 3 _ (by decide) (show _ < 1000 by omega)).trans (congrArg some hread)
  split
  · next hmicros =>
    have hread : nanos / 1000 * 1000 = nanos := by omega
    rw [String.toList_append]
    exact (@nanosOfText?_zeroPadded 6 _ (by decide) (show _ < 1000000 by omega)).trans (congrArg some hread)
  · rw [String.toList_append]
    exact (@nanosOfText?_zeroPadded 9 _ (by decide) h).trans (congrArg some (Nat.mul_one nanos))

end Timestamp
end

/-! ## Time stamps -/

namespace Timestamp

/-- A time stamp of a year of four digits, which goes on beyond a second only behind the last one of a minute. -/
structure InCalendar (m : Timestamp) : Prop where
  year : 0 ≤ (CalendarDay.ofEpochDays (m.seconds / 86400)).year ∧
    (CalendarDay.ofEpochDays (m.seconds / 86400)).year ≤ 9999
  nanos : m.nanos < nanosInSecond ∨ m.seconds % 60 = 59 ∧ m.nanos < 2 * nanosInSecond

/-- The written form of a time stamp stands for it. -/
theorem ofText?_text {m : Timestamp} (h : m.InCalendar) : ofText? m.text = some m := by
  obtain ⟨⟨hyear, hyears⟩, hnanos⟩ := h
  rw [text]
  generalize hdate : CalendarDay.ofEpochDays (m.seconds / 86400) = date at hyear hyears ⊢
  generalize htime : (m.seconds % 86400).toNat = time
  obtain ⟨hmonth, hday⟩ : date.month ≤ 12 ∧ date.day ≤ 31 := hdate ▸ CalendarDay.bounds_ofEpochDays _
  have hdays : date.epochDays = m.seconds / 86400 := hdate ▸ CalendarDay.epochDays_ofEpochDays _
  have htwo : ∀ {n : Nat}, n < 100 → ∀ rest, digits? 2 ((zeroPadded 2 n).toList ++ rest) = some (n, rest) :=
    fun hn => digits?_zeroPadded (by decide) hn
  have hfour : date.year.toNat < 10000 := by omega
  have hsecond : time % 60 + m.nanos / nanosInSecond < 100 := by
    rw [nanosInSecond] at *
    omega
  have hnanosLeft : m.nanos % nanosInSecond < nanosInSecond := Nat.mod_lt _ (by decide)
  simp only [ofText?, yearText, if_pos (And.intro hyear hyears), String.toList_append, List.append_assoc,
    show "-".toList = ['-'] from rfl, show "T".toList = ['T'] from rfl, show ":".toList = [':'] from rfl,
    show "Z".toList = ['Z'] from rfl, List.cons_append, List.nil_append, bind, Option.bind_some, behind?_cons,
    @digits?_zeroPadded 4 _ (by decide) hfour, htwo (show date.month < 100 by omega),
    htwo (show date.day < 100 by omega), htwo (show time / 3600 < 100 by omega),
    htwo (show time / 60 % 60 < 100 by omega), htwo hsecond, nanosOfText?_secondFraction hnanosLeft,
    Int.toNat_of_nonneg hyear, hdays]
  -- what is left is arithmetic: the hours, minutes and seconds of the day, and the leap second
  have hseconds : m.seconds / 86400 * 86400 +
      ((time / 3600 : Nat) * 3600 + (time / 60 % 60 : Nat) * 60 +
        ((time % 60 + m.nanos / nanosInSecond : Nat) - ((time % 60 + m.nanos / nanosInSecond) / 60 : Nat))) =
      m.seconds := by
    rw [nanosInSecond] at *
    omega
  have hnanos : m.nanos % nanosInSecond + (time % 60 + m.nanos / nanosInSecond) / 60 * nanosInSecond = m.nanos := by
    rw [nanosInSecond] at *
    omega
  rw [hseconds, hnanos]
  rfl

end Timestamp

/-- Time stamps of four-digit years are read back from what is written for them. -/
theorem TimeFormat.utc_reads {m : Timestamp} (h : m.InCalendar) : TimeFormat.utc.Reads m :=
  Timestamp.ofText?_text h

/-- The middle of a leap second. -/
example : Timestamp.text ⟨1483228799, 1500000000⟩ = "2016-12-31T23:59:60.500Z" := by
  decide +kernel

end PluginSandbox
