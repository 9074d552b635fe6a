import DocumentStore.Instant.Text
import DocumentStore.Proofs.Calendar
import Mathlib.Algebra.Ring.Nat

/-!
The texts of instants, in the years 0 to 9999: each is read back as its instant, and they come in
the order of time.
-/

namespace DocumentStore.Instant

def digit (n : Nat) : Char := Char.ofNat (48 + n)

theorem isDigit_digit : ∀ n < 10, (digit n).isDigit = true := by decide

theorem toNat_digit : ∀ n < 10, (digit n).toNat - 48 = n := by decide

theorem padded_succ (width n : Nat) :
    padded (width + 1) n = padded width (n / 10) ++ [digit (n % 10)] := rfl

theorem length_padded (width n : Nat) : (padded width n).length = width := by
  induction width generalizing n with
  | zero => rfl
  | succ width ih => rw [padded_succ, List.length_append, ih, List.length_singleton]

theorem isDigit_of_mem_padded {width n : Nat} {c : Char} (h : c ∈ padded width n) :
    c.isDigit = true := by
  induction width generalizing n with
  | zero => cases h
  | succ width ih =>
    rcases List.mem_append.mp h with h | h
    · exact ih h
    · rw [List.mem_singleton.mp h]
      exact isDigit_digit (n % 10) (Nat.mod_lt n (by decide))

theorem foldl_padded (width n : Nat) :
    (padded width n).foldl (fun n c => n * 10 + (c.toNat - 48)) 0 = n % 10 ^ width := by
  induction width generalizing n with
  | zero => rw [Nat.pow_zero, Nat.mod_one]; rfl
  | succ width ih =>
    have hlast := toNat_digit (n % 10) (Nat.mod_lt n (by decide))
    rw [padded_succ, List.foldl_append, ih, List.foldl_cons, List.foldl_nil, hlast, Nat.pow_succ,
      Nat.mul_comm (10 ^ width) 10, Nat.mod_mul]
    omega

theorem takeNumber_append {digits : List Char} (h : ∀ c ∈ digits, c.isDigit = true) (n : Nat)
    (rest : List Char) :
    takeNumber digits.length n (digits ++ rest) =
      some (digits.foldl (fun n c => n * 10 + (c.toNat - 48)) n, rest) := by
  induction digits generalizing n with
  | nil => rfl
  | cons c digits ih =>
    have hc : c.isDigit = true := h c List.mem_cons_self
    rw [List.length_cons, List.cons_append, takeNumber, if_pos hc, List.foldl_cons]
    exact ih (fun c hc => h c (List.mem_cons_of_mem _ hc)) _

theorem number_padded {width n : Nat} (h : n < 10 ^ width) (rest : List Char) :
    number width (padded width n ++ rest) = some (n, rest) := by
  have hd : ∀ c ∈ padded width n, c.isDigit = true := fun c hc => isDigit_of_mem_padded hc
  have ht := takeNumber_append hd 0 rest
  rw [length_padded, foldl_padded, Nat.mod_eq_of_lt h] at ht
  exact ht

theorem mark_of_mem {marks : List Char} {c : Char} (h : marks.contains c = true)
    (rest : List Char) :
    mark marks (c :: rest) = some rest := if_pos h

theorem fraction_padded {n : Nat} (h : n < 1000) (rest : List Char) :
    fraction ('.' :: (padded 3 n ++ 'Z' :: rest)) = some (n * 1000000, 'Z' :: rest) := by
  have hd : ∀ c ∈ padded 3 n, c.isDigit = true := fun c hc => isDigit_of_mem_padded hc
  have htake : (padded 3 n ++ 'Z' :: rest).takeWhile Char.isDigit = padded 3 n := by
    rw [List.takeWhile_append_of_pos hd]
    simp
  have hdrop : (padded 3 n ++ 'Z' :: rest).dropWhile Char.isDigit = 'Z' :: rest := by
    rw [List.dropWhile_append_of_pos hd]
    simp
  have hlen := length_padded 3 n
  have hne : padded 3 n ≠ [] := List.ne_nil_of_length_pos (by omega)
  have hkept : (padded 3 n).take 9 = padded 3 n := List.take_of_length_le (by omega)
  have hvalue : n % 10 ^ 3 = n := Nat.mod_eq_of_lt (by omega)
  have hscale : Nat.pow 10 (9 - 3) = 1000000 := rfl
  rw [fraction, htake, if_neg hne, hdrop, fractionNanos, hkept, foldl_padded, hvalue, hlen, hscale]

def InFourDigits (t : Instant) : Prop :=
  0 ≤ (Date.ofDays (t.seconds / 86400)).year ∧ (Date.ofDays (t.seconds / 86400)).year ≤ 9999

instance (t : Instant) : Decidable t.InFourDigits := inferInstanceAs (Decidable (_ ∧ _))

/-- The widths of the numbers of a text, each with the mark after it. -/
def layout : List (Nat × Char) :=
  [(4, '-'), (2, '-'), (2, 'T'), (2, ':'), (2, ':'), (2, '.'), (3, 'Z')]

def written : List (Nat × Char) → List Nat → List Char
  | (width, mark) :: layout, n :: numbers => padded width n ++ mark :: written layout numbers
  | _, _ => []

def Fits : List (Nat × Char) → List Nat → Prop
  | [], [] => True
  | (width, _) :: layout, n :: numbers => n < 10 ^ width ∧ Fits layout numbers
  | _, _ => False

def numbers (millis : Int) : List Nat :=
  let date := Date.ofDays (millis / 86400000)
  let rest := (millis % 86400000).toNat
  [date.year.toNat, date.month, date.day, rest / 3600000, rest / 60000 % 60, rest / 1000 % 60,
    rest % 1000]

theorem day_ofMillis (millis : Int) : (ofMillis millis).seconds / 86400 = millis / 86400000 := by
  simp only [ofMillis]
  omega

theorem inFourDigits_ofMillis (millis : Int) :
    (ofMillis millis).InFourDigits ↔
      0 ≤ (Date.ofDays (millis / 86400000)).year ∧
      (Date.ofDays (millis / 86400000)).year ≤ 9999 := by
  rw [InFourDigits, day_ofMillis]

theorem formatChars_ofMillis {millis : Int} (h : (ofMillis millis).InFourDigits) :
    formatChars (ofMillis millis) = written layout (numbers millis) := by
  have hnanos : (ofMillis millis).nanos = (millis % 1000).toNat * 1000000 := rfl
  have hsecond : ((ofMillis millis).seconds % 86400).toNat = (millis % 86400000).toNat / 1000 := by
    simp only [ofMillis]
    omega
  rw [inFourDigits_ofMillis] at h
  have hleap : (millis % 1000).toNat * 1000000 / 1000000000 = 0 := by omega
  have hmillis : (millis % 1000).toNat * 1000000 % 1000000000 / 1000000 =
      (millis % 86400000).toNat % 1000 := by omega
  have hhour : (millis % 86400000).toNat / 1000 / 3600 = (millis % 86400000).toNat / 3600000 := by
    omega
  have hminute : (millis % 86400000).toNat / 1000 / 60 % 60 =
      (millis % 86400000).toNat / 60000 % 60 := by omega
  simp only [formatChars, day_ofMillis, hsecond, hnanos, hleap, hmillis, hhour, hminute, yearText,
    if_pos h, numbers, layout, written, List.append_assoc, List.cons_append, Nat.add_zero]

theorem fits_numbers {millis : Int} (h : (ofMillis millis).InFourDigits) :
    Fits layout (numbers millis) := by
  rw [inFourDigits_ofMillis] at h
  have hdate := (Date.valid_ofDays (millis / 86400000)).day_le
  simp only [Fits, layout, numbers, and_true]
  omega

theorem seconds_of_time (time : Nat) :
    time / 3600000 * 3600 + time / 60000 % 60 * 60 + (time / 1000 % 60 - time / 1000 % 60 / 60) =
      time / 1000 := by
  have hhour : time / 3600000 = time / 1000 / 60 / 60 := by omega
  have hminute : time / 60000 = time / 1000 / 60 := by omega
  rw [hhour, hminute]
  omega

theorem parse?_format_ofMillis {millis : Int} (h : (ofMillis millis).InFourDigits) :
    parse? (ofMillis millis).format = some (ofMillis millis) := by
  have hvalid := Date.valid_ofDays (millis / 86400000)
  have hdays := Date.toDays_ofDays (millis / 86400000)
  have hfits := fits_numbers h
  rw [parse?, format, String.toList_ofList, formatChars_ofMillis h]
  simp only [Fits, layout, numbers] at hfits
  obtain ⟨hyear, hmonth, hday, hhour, hminute, hsecond, hmillis, -⟩ := hfits
  have hyphen : (['-'] : List Char).contains '-' = true := rfl
  have hcolon : ([':'] : List Char).contains ':' = true := rfl
  have htee : (['T', 't', ' '] : List Char).contains 'T' = true := rfl
  simp only [written, layout, numbers, parseChars, number_padded hyear, number_padded hmonth,
    number_padded hday, number_padded hhour, number_padded hminute, number_padded hsecond,
    fraction_padded (by omega), mark_of_mem hyphen,
    mark_of_mem hcolon, mark_of_mem htee, offset, Option.bind_eq_bind, Option.bind_some,
    if_true, true_or]
  rw [inFourDigits_ofMillis] at h
  have hdate :
      (⟨((Date.ofDays (millis / 86400000)).year.toNat : Int),
        (Date.ofDays (millis / 86400000)).month,
      (Date.ofDays (millis / 86400000)).day⟩ : Date) = Date.ofDays (millis / 86400000) := by
    rw [Int.toNat_of_nonneg h.1]
  have hleap : (millis % 86400000).toNat / 1000 % 60 / 60 = 0 := by omega
  have htime : (millis % 86400000).toNat / 3600000 ≤ 23 := by omega
  have hseconds : millis / 86400000 * 86400 + ((millis % 86400000).toNat / 1000 : Nat) =
      millis / 1000 := by omega
  have hrest : (millis % 86400000).toNat % 1000 = (millis % 1000).toNat := by omega
  rw [hdate, hdays, if_pos ⟨hvalid, htime, by omega, by omega⟩, seconds_of_time, hleap,
    hseconds, hrest]
  simp only [ofMillis, Nat.zero_mul, Nat.add_zero, Int.zero_mul, Int.sub_zero]

variable {α : Type} [LT α]

def Ascends (f : Char → α) : Prop := ∀ n < 10, ∀ m < n, f (digit m) < f (digit n)

theorem map_padded_append_lt {f : Char → α} (hf : Ascends f) {width m n : Nat} (h : m < n)
    (hn : n < 10 ^ width) (rest rest' : List α) :
    (padded width m).map f ++ rest < (padded width n).map f ++ rest' := by
  induction width generalizing m n rest rest' with
  | zero => omega
  | succ width ih =>
    simp only [padded_succ, List.map_append, List.map_cons, List.map_nil, List.append_assoc,
      List.cons_append, List.nil_append]
    rw [Nat.pow_succ] at hn
    by_cases hd : m / 10 < n / 10
    · exact ih hd (by omega) _ _
    · have heq : m / 10 = n / 10 := by omega
      rw [heq]
      exact List.append_left_lt (List.cons_lt_cons_iff.mpr (.inl (hf _ (by omega) _ (by omega))))

/-- Texts of one layout come in the order of their numbers. -/
theorem map_written_lt {f : Char → α} (hf : Ascends f) {layout : List (Nat × Char)}
    {numbers numbers' : List Nat} (h : numbers < numbers') (hn : Fits layout numbers)
    (hn' : Fits layout numbers') :
    (written layout numbers).map f < (written layout numbers').map f := by
  induction layout generalizing numbers numbers' with
  | nil =>
    cases numbers' with
    | nil => exact absurd h (List.not_lt_nil _)
    | cons n numbers' => cases hn'
  | cons field layout ih =>
    cases numbers with
    | nil => cases hn
    | cons m numbers =>
      cases numbers' with
      | nil => cases hn'
      | cons n numbers' =>
        simp only [written, List.map_append, List.map_cons]
        rcases List.cons_lt_cons_iff.mp h with hlt | ⟨rfl, hlt⟩
        · exact map_padded_append_lt hf hlt hn'.1 _ _
        · have hrest : f field.2 :: (written layout numbers).map f <
              f field.2 :: (written layout numbers').map f :=
            List.cons_lt_cons_iff.mpr (.inr ⟨rfl, ih hlt hn.2 hn'.2⟩)
          exact List.append_left_lt hrest

theorem time_lt {time time' : Nat} (h : time < time') :
    [time / 3600000, time / 60000 % 60, time / 1000 % 60, time % 1000] <
      [time' / 3600000, time' / 60000 % 60, time' / 1000 % 60, time' % 1000] := by
  simp only [List.cons_lt_cons_iff]
  by_cases hhour : time / 3600000 = time' / 3600000
  · by_cases hminute : time / 60000 = time' / 60000
    · by_cases hsecond : time / 1000 = time' / 1000
      · have hmillis : time % 1000 < time' % 1000 := by omega
        exact .inr ⟨hhour, .inr ⟨by rw [hminute], .inr ⟨by rw [hsecond], .inl hmillis⟩⟩⟩
      · have hsecond' : time / 1000 % 60 < time' / 1000 % 60 := by omega
        exact .inr ⟨hhour, .inr ⟨by rw [hminute], .inl hsecond'⟩⟩
    · have hminute' : time / 60000 % 60 < time' / 60000 % 60 := by omega
      exact .inr ⟨hhour, .inl hminute'⟩
  · exact .inl (by omega)

theorem numbers_lt {millis millis' : Int} (h : (ofMillis millis).InFourDigits)
    (hlt : millis < millis') :
    numbers millis < numbers millis' := by
  rw [inFourDigits_ofMillis] at h
  by_cases hday : millis / 86400000 = millis' / 86400000
  · have htime := time_lt (show (millis % 86400000).toNat < (millis' % 86400000).toNat by omega)
    simp only [numbers, hday]
    exact .cons (.cons (.cons htime))
  · have hbefore :=
      (Date.before_ofDays_iff _ _).mpr (show millis / 86400000 < millis' / 86400000 by omega)
    simp only [numbers]
    rcases hbefore with hyear | ⟨hyear, hmonth | ⟨hmonth, hday⟩⟩
    · exact .rel (by omega)
    · rw [hyear]
      exact .cons (.rel hmonth)
    · rw [hyear, hmonth]
      exact .cons (.cons (.rel hday))

theorem compare_ofMillis (millis millis' : Int) :
    (ofMillis millis).compare (ofMillis millis') = .gt ↔ millis' < millis := by
  simp only [compare, ofMillis, Ordering.then_eq_gt, Int.compare_eq_gt, Int.compare_eq_eq,
    Nat.compare_eq_gt]
  omega

def bytes (text : String) : List UInt8 := text.toUTF8.data.toList

theorem bytes_ofList {chars : List Char} (h : ∀ c ∈ chars, c.toNat ≤ 127) :
    bytes (.ofList chars) = chars.map fun c => UInt8.ofNat c.toNat := by
  simp only [bytes, String.toUTF8, String.toByteArray_ofList, List.utf8Encode,
    List.data_toByteArray]
  induction chars with
  | nil => rfl
  | cons c chars ih =>
    have hc : String.utf8EncodeChar c = [UInt8.ofNat c.toNat] := if_pos (h c List.mem_cons_self)
    have hrest := ih fun c hc => h c (List.mem_cons_of_mem _ hc)
    rw [List.flatMap_cons, hc, List.map_cons, ← hrest]
    rfl

theorem mem_written {layout : List (Nat × Char)} {numbers : List Nat} {c : Char}
    (h : c ∈ written layout numbers) :
    c.isDigit = true ∨ c ∈ layout.map (·.2) := by
  induction layout generalizing numbers with
  | nil => cases h
  | cons field layout ih =>
    cases numbers with
    | nil => cases h
    | cons n numbers =>
      simp only [written, List.mem_append, List.mem_cons] at h
      rcases h with h | rfl | h
      · exact .inl (isDigit_of_mem_padded h)
      · exact .inr List.mem_cons_self
      · exact (ih h).imp_right (List.mem_cons_of_mem _)

theorem bytes_format_ofMillis {millis : Int} (h : (ofMillis millis).InFourDigits) :
    bytes (ofMillis millis).format =
      (written layout (numbers millis)).map fun c => UInt8.ofNat c.toNat := by
  rw [format, formatChars_ofMillis h]
  refine bytes_ofList fun c hc => ?_
  rcases mem_written hc with hd | hm
  · simp only [Char.isDigit, Bool.and_eq_true, decide_eq_true_eq, ge_iff_le] at hd
    exact Nat.le_trans hd.2 (by decide)
  · have hmarks : (layout.map (·.2)).all (fun c => decide (c.toNat ≤ 127)) = true := rfl
    exact of_decide_eq_true (List.all_eq_true.mp hmarks c hm)

/-- Later times have greater texts, in the order of bytes. -/
theorem bytes_format_lt {millis millis' : Int} (h : (ofMillis millis).InFourDigits)
    (h' : (ofMillis millis').InFourDigits) (hlt : millis < millis') :
    bytes (ofMillis millis).format < bytes (ofMillis millis').format := by
  rw [bytes_format_ofMillis h, bytes_format_ofMillis h']
  have hf : Ascends fun c => UInt8.ofNat c.toNat := by
    simp only [Ascends]
    decide
  exact map_written_lt hf (numbers_lt h hlt) (fits_numbers h) (fits_numbers h')

end DocumentStore.Instant
