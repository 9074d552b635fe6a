import DocumentStore.Instant.Date

/-!
The calendar is exact: every count of days is a date of the calendar, no date stands for two counts,
and later dates have greater counts.
-/

namespace DocumentStore.Date

theorem isLeapYear_iff (year : Int) :
    isLeapYear year = true ↔ year % 4 = 0 ∧ (year % 100 ≠ 0 ∨ year % 400 = 0) := by
  simp [isLeapYear]

/-- The year counted from March that a day belongs to, and the day within it. The last of 366 is
before a leap year. -/
structure YearDay (year : Int) (day : Nat) (days : Int) : Prop where
  days_eq : yearStart year + day = days + epoch
  day_le : day ≤ 365
  leap : day = 365 → isLeapYear (year + 1) = true

theorem exists_yearDay (days : Int) :
    ∃ year day, YearDay year day days ∧ ofDays days = ofYearDay year day := by
  refine ⟨_, _, ?_, rfl⟩
  generalize hn : days + epoch = n
  have hcycle : 146097 * (n / 146097) + ((n % 146097).toNat : Int) = n := by omega
  have hinCycle : (n % 146097).toNat < 146097 := by omega
  generalize (n % 146097).toNat = inCycle at hcycle hinCycle ⊢
  generalize n / 146097 = cycle at hcycle ⊢
  -- A century of the cycle has 36524 days, the last one 36525.
  obtain ⟨century, hcentury⟩ : ∃ century, min (inCycle / 36524) 3 = century := ⟨_, rfl⟩
  obtain ⟨inCentury, hinCentury⟩ : ∃ k, inCycle - century * 36524 = k := ⟨_, rfl⟩
  have hc : century ≤ 3 ∧ inCycle = century * 36524 + inCentury ∧
      (inCentury < 36524 ∨ century = 3 ∧ inCentury = 36524) := by omega
  -- Four years have 1461 days, and a short century ends in four years of 1460.
  obtain ⟨leap, hleap⟩ : ∃ leap, inCentury / 1461 = leap := ⟨_, rfl⟩
  obtain ⟨inLeap, hinLeap⟩ : ∃ k, inCentury - leap * 1461 = k := ⟨_, rfl⟩
  have hl : leap ≤ 24 ∧ inCentury = leap * 1461 + inLeap ∧ inLeap < 1461 := by omega
  obtain ⟨year, hyear⟩ : ∃ year, min (inLeap / 365) 3 = year := ⟨_, rfl⟩
  obtain ⟨day, hday⟩ : ∃ k, inLeap - year * 365 = k := ⟨_, rfl⟩
  have hy : year ≤ 3 ∧ inLeap = year * 365 + day ∧ (day < 365 ∨ year = 3 ∧ day = 365) := by omega
  simp only [hcentury, hinCentury, hleap, hinLeap, hyear, hday]
  obtain ⟨hc₁, hc₂, hc₃⟩ := hc
  obtain ⟨hl₁, hl₂, hl₃⟩ := hl
  obtain ⟨hy₁, hy₂, hy₃⟩ := hy
  clear hcentury hinCentury hleap hinLeap hyear hday hinCycle
  refine ⟨?_, by omega, fun h => ?_⟩
  · simp only [yearStart, hn]
    omega
  · rw [isLeapYear_iff]
    omega

theorem yearStart_succ (year : Int) :
    yearStart (year + 1) = yearStart year + if isLeapYear (year + 1) then 366 else 365 := by
  have h := isLeapYear_iff (year + 1)
  simp only [yearStart]
  split
  · rename_i hl
    have := h.mp hl
    omega
  · rename_i hl
    have := mt h.mpr hl
    omega

/-- The day of its month, counted from 0, that a day of a year counted from March is. -/
theorem ofYearDay_eq (year : Int) {day : Nat} (hd : day ≤ 365) :
    ∃ month rest, month < 12 ∧ day = monthStart month + rest ∧
      (rest ≤ 30 ∧ (month ∈ [1, 3, 6, 8] → rest ≤ 29) ∧
        (month = 11 → rest < 28 ∨ rest = 28 ∧ day = 365)) ∧
      ofYearDay year day =
        if month < 10 then ⟨year, month + 3, rest + 1⟩ else ⟨year + 1, month - 9, rest + 1⟩ := by
  refine ⟨(5 * day + 2) / 153, day - monthStart ((5 * day + 2) / 153), by omega, ?_, ?_, rfl⟩
  · simp only [monthStart]
    omega
  · simp only [monthStart, List.mem_cons, List.not_mem_nil, or_false]
    refine ⟨by omega, fun h => ?_, by omega⟩
    rcases h with h | h | h | h <;> omega

theorem valid_ofYearDay {year : Int} {day : Nat} (hd : day ≤ 365)
    (hl : day = 365 → isLeapYear (year + 1) = true) :
    (ofYearDay year day).Valid := by
  obtain ⟨month, rest, hm, -, ⟨hr, hshort, hfeb⟩, he⟩ := ofYearDay_eq year hd
  rw [he]
  simp only [List.mem_cons, List.not_mem_nil, or_false] at hshort
  split
  · refine ⟨by simp, by simp; omega, by simp, ?_⟩
    simp only [monthLength, if_neg (show month + 3 ≠ 2 by omega)]
    split <;> omega
  · refine ⟨by simp; omega, by simp; omega, by simp, ?_⟩
    simp only [monthLength]
    split
    · rcases hfeb (by omega) with h | ⟨rfl, hlast⟩
      · split <;> omega
      · simp [hl hlast]
    · split <;> omega

theorem toDays_ofYearDay {year : Int} {day : Nat} (hd : day ≤ 365) :
    (ofYearDay year day).toDays = yearStart year + day - epoch := by
  obtain ⟨month, rest, hm, hday, -, he⟩ := ofYearDay_eq year hd
  rw [he, hday]
  split
  · simp only [toDays, if_neg (show ¬ month + 3 ≤ 2 by omega), Nat.add_sub_cancel]
    omega
  · have hback : month - 9 + 9 = month := by omega
    simp only [toDays, if_pos (show month - 9 ≤ 2 by omega), Int.add_sub_cancel, hback]
    omega

theorem valid_ofDays (days : Int) : (ofDays days).Valid := by
  obtain ⟨year, day, hy, he⟩ := exists_yearDay days
  rw [he]
  exact valid_ofYearDay hy.day_le hy.leap

theorem toDays_ofDays (days : Int) : (ofDays days).toDays = days := by
  obtain ⟨year, day, hy, he⟩ := exists_yearDay days
  rw [he, toDays_ofYearDay hy.day_le]
  have := hy.days_eq
  omega

def Before (a b : Date) : Prop :=
  a.year < b.year ∨ a.year = b.year ∧ (a.month < b.month ∨ a.month = b.month ∧ a.day < b.day)

theorem not_before_of_not_before {a b : Date} (h : ¬ a.Before b) (h' : ¬ b.Before a) : a = b := by
  obtain ⟨year, month, day⟩ := a
  obtain ⟨year', month', day'⟩ := b
  simp only [Before] at h h'
  obtain rfl : year = year' := by omega
  obtain rfl : month = month' := by omega
  obtain rfl : day = day' := by omega
  rfl

theorem yearStart_pred_le (year : Int) : yearStart (year - 1) + 365 ≤ yearStart year := by
  simp only [yearStart]
  omega

theorem monthStart_le {month month' : Nat} (h : month < month') (hm : month ≤ 10) :
    monthStart month + (if month ∈ [1, 3, 6, 8] then 30 else 31) ≤ monthStart month' := by
  have hnext : monthStart (month + 1) ≤ monthStart month' := by
    simp only [monthStart]
    omega
  have hlen : ∀ m ≤ 10, monthStart m + (if m ∈ [1, 3, 6, 8] then 30 else 31) =
      monthStart (m + 1) := by decide
  rw [hlen month hm]
  exact hnext

theorem Valid.day_le {d : Date} (h : d.Valid) :
    1 ≤ d.month ∧ d.month ≤ 12 ∧ 1 ≤ d.day ∧ d.day ≤ 31 ∧
      (d.month = 4 ∨ d.month = 6 ∨ d.month = 9 ∨ d.month = 11 → d.day ≤ 30) ∧
      (d.month = 2 → yearStart (d.year - 1) + 337 + d.day ≤ yearStart d.year) := by
  obtain ⟨hm₁, hm₂, hd₁, hd₂⟩ := h
  have hy := yearStart_succ (d.year - 1)
  rw [Int.sub_add_cancel] at hy
  unfold monthLength at hd₂
  split at hd₂
  · split at hd₂
    · rename_i hl
      rw [if_pos hl] at hy
      omega
    · rename_i hl
      rw [if_neg hl] at hy
      omega
  · split at hd₂ <;> omega

def newYear (year : Int) : Int := yearStart (year - 1) + 306 - epoch

theorem newYear_mono {year year' : Int} (h : year ≤ year') : newYear year ≤ newYear year' := by
  simp only [newYear, yearStart]
  omega

theorem Valid.within_year {d : Date} (h : d.Valid) :
    newYear d.year ≤ d.toDays ∧ d.toDays < newYear (d.year + 1) := by
  obtain ⟨hm₁, hm₂, hd₁, hd₂, -, hfeb⟩ := h.day_le
  have hlong := yearStart_pred_le d.year
  simp only [newYear, toDays, monthStart, Int.add_sub_cancel]
  split <;> omega

theorem toDays_lt_of_before {a b : Date} (ha : a.Valid) (hb : b.Valid) (h : a.Before b) :
    a.toDays < b.toDays := by
  rcases h with hy | ⟨hy, h⟩
  · calc a.toDays < newYear (a.year + 1) := ha.within_year.2
      _ ≤ newYear b.year := newYear_mono hy
      _ ≤ b.toDays := hb.within_year.1
  · obtain ⟨ha₁, ha₂, ha₃, ha₄, hshort, hfeb⟩ := ha.day_le
    obtain ⟨hb₁, hb₂, hb₃, hb₄, -, -⟩ := hb.day_le
    have hlong := yearStart_pred_le b.year
    rw [hy] at hfeb
    simp only [toDays, hy]
    split
    · split
      · simp only [monthStart]
        omega
      · simp only [monthStart]
        omega
    · rename_i hm
      rw [if_neg (show ¬ b.month ≤ 2 by omega)]
      rcases h with h | ⟨h, hd⟩
      · have hstart := monthStart_le (show a.month - 3 < b.month - 3 by omega) (by omega)
        simp only [List.mem_cons, List.not_mem_nil, or_false] at hstart
        split at hstart <;> omega
      · rw [h]
        omega

theorem before_ofDays_iff (m n : Int) : (ofDays m).Before (ofDays n) ↔ m < n := by
  have hlt {k l : Int} (h : (ofDays k).Before (ofDays l)) : k < l := by
    rw [← toDays_ofDays k, ← toDays_ofDays l]
    exact toDays_lt_of_before (valid_ofDays k) (valid_ofDays l) h
  refine ⟨hlt, fun h => Classical.byContradiction fun hn => ?_⟩
  have hn' : ¬ (ofDays n).Before (ofDays m) := fun h' => by have := hlt h'; omega
  have heq := congrArg toDays (not_before_of_not_before hn hn')
  rw [toDays_ofDays, toDays_ofDays] at heq
  omega

end DocumentStore.Date
