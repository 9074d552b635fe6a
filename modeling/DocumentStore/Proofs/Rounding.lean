import DocumentStore.Number
import Mathlib.Order.Monotone.Basic
import Mathlib.Algebra.Order.Ring.Nat
import Mathlib.Tactic.Ring

/-!
Rounding to doubles. The double of an integer, and the sum of two doubles, is the nearest to the
exact value and the even one of two that are equally near. So rounding never turns an order round,
and it keeps all integers up to `2 ^ 53`.
-/

namespace DocumentStore

theorem divHalfEven_bounds (num : Nat) {den : Nat} (h : 0 < den) :
    2 * (divHalfEven num den * den) ≤ 2 * num + den ∧
    2 * num ≤ 2 * (divHalfEven num den * den) + den ∧
      (2 * (divHalfEven num den * den) = 2 * num + den ∨
        2 * num = 2 * (divHalfEven num den * den) + den →
        divHalfEven num den % 2 = 0) := by
  have hdiv : num / den * den + num % den = num := Nat.div_add_mod' num den
  have hmod : num % den < den := Nat.mod_lt num h
  have hsucc : (num / den + 1) * den = num / den * den + den := Nat.succ_mul _ _
  unfold divHalfEven
  split
  · omega
  · rw [hsucc]
    omega

theorem divHalfEven_nearest (num : Nat) {den : Nat} (h : 0 < den) (other : Nat) :
    ((divHalfEven num den * den : Nat) - num : Int).natAbs ≤
      ((other * den : Nat) - num : Int).natAbs ∧
      (((other * den : Nat) - num : Int).natAbs =
        ((divHalfEven num den * den : Nat) - num : Int).natAbs →
        other = divHalfEven num den ∨ divHalfEven num den % 2 = 0) := by
  obtain ⟨hhigh, hlow, heven⟩ := divHalfEven_bounds num h
  generalize divHalfEven num den = quotient at *
  rcases Nat.lt_trichotomy other quotient with hlt | rfl | hlt
  · have hstep : (other + 1) * den ≤ quotient * den := Nat.mul_le_mul_right den hlt
    rw [Nat.succ_mul] at hstep
    omega
  · exact ⟨Nat.le_refl _, fun _ => .inl rfl⟩
  · have hstep : (quotient + 1) * den ≤ other * den := Nat.mul_le_mul_right den hlt
    rw [Nat.succ_mul] at hstep
    omega

namespace Double

/-- A rank is a place among the doubles of one spacing: a significand and how often the spacing has
been doubled. -/
theorem exists_scale (rank : Nat) :
    ∃ k t, rank = k * 2 ^ 52 + t ∧ t < 2 ^ 53 ∧ (k = 0 ∨ 2 ^ 52 ≤ t) := by
  by_cases h : rank < 2 ^ 53
  · exact ⟨0, rank, by omega, h, .inl rfl⟩
  · exact ⟨rank / 2 ^ 52 - 1, rank % 2 ^ 52 + 2 ^ 52, by omega, by omega, .inr (by omega)⟩

theorem unitsAt_scale {k t : Nat} (ht : t ≤ 2 ^ 53) (hk : k = 0 ∨ 2 ^ 52 ≤ t) :
    unitsAt (k * 2 ^ 52 + t) = t * 2 ^ k := by
  by_cases hsmall : t < 2 ^ 52
  · obtain rfl : k = 0 := by omega
    rw [unitsAt, if_pos (by omega), Nat.zero_mul, Nat.zero_add, Nat.pow_zero, Nat.mul_one]
  · rw [unitsAt, if_neg (by omega), Nat.shiftLeft_eq]
    rcases Nat.lt_or_eq_of_le ht with hlt | rfl
    · have hquot : (k * 2 ^ 52 + t) / 2 ^ 52 - 1 = k := by omega
      have hrem : 2 ^ 52 + (k * 2 ^ 52 + t) % 2 ^ 52 = t := by omega
      rw [hquot, hrem]
    · have hquot : (k * 2 ^ 52 + 2 ^ 53) / 2 ^ 52 - 1 = k + 1 := by omega
      have hrem : 2 ^ 52 + (k * 2 ^ 52 + 2 ^ 53) % 2 ^ 52 = 2 ^ 52 := by omega
      rw [hquot, hrem, Nat.pow_succ]
      omega

theorem unitsAt_strictMono : StrictMono unitsAt := by
  apply strictMono_nat_of_lt_succ
  intro rank
  obtain ⟨k, t, rfl, ht, hk⟩ := exists_scale rank
  rw [Nat.add_assoc, unitsAt_scale (Nat.le_of_lt ht) hk, unitsAt_scale ht (by omega), Nat.succ_mul]
  exact Nat.lt_add_of_pos_right (Nat.two_pow_pos k)

def shiftOf (num den : Nat) : Nat := Nat.log2 (num / den) - 52

theorem nearestRank_eq (num den : Nat) :
    nearestRank num den =
      shiftOf num den * 2 ^ 52 + divHalfEven num (den * 2 ^ shiftOf num den) := by
  rw [nearestRank, shiftOf, Nat.shiftLeft_eq]

theorem lt_of_shiftOf (num : Nat) {den : Nat} (h : 0 < den) :
    num < 2 ^ 53 * (den * 2 ^ shiftOf num den) := by
  have hlog : num / den < 2 ^ (Nat.log2 (num / den) + 1) := Nat.lt_log2_self
  have hpow : 2 ^ (Nat.log2 (num / den) + 1) ≤ 2 ^ (53 + shiftOf num den) :=
    Nat.pow_le_pow_right (by omega) (by unfold shiftOf; omega)
  have hquot : num / den < 2 ^ 53 * 2 ^ shiftOf num den := by
    rw [← Nat.pow_add]
    exact Nat.lt_of_lt_of_le hlog hpow
  rw [Nat.div_lt_iff_lt_mul h] at hquot
  calc num < 2 ^ 53 * 2 ^ shiftOf num den * den := hquot
    _ = 2 ^ 53 * (den * 2 ^ shiftOf num den) := by ring

theorem le_of_shiftOf (num : Nat) {den : Nat} (h : 0 < den) (hk : shiftOf num den ≠ 0) :
    2 ^ 52 * (den * 2 ^ shiftOf num den) ≤ num := by
  have hne : num / den ≠ 0 := by
    intro hzero
    rw [shiftOf, hzero] at hk
    exact hk (by decide)
  have hlog : 2 ^ Nat.log2 (num / den) ≤ num / den := Nat.log2_self_le hne
  have hpow : Nat.log2 (num / den) = 52 + shiftOf num den := by
    unfold shiftOf at hk ⊢
    omega
  rw [hpow, Nat.pow_add, Nat.le_div_iff_mul_le h] at hlog
  calc 2 ^ 52 * (den * 2 ^ shiftOf num den) = 2 ^ 52 * 2 ^ shiftOf num den * den := by ring
    _ ≤ num := hlog

theorem significand_bounds (num : Nat) {den : Nat} (h : 0 < den) :
    divHalfEven num (den * 2 ^ shiftOf num den) ≤ 2 ^ 53 ∧
      (shiftOf num den = 0 ∨ 2 ^ 52 ≤ divHalfEven num (den * 2 ^ shiftOf num den)) := by
  have hpos : 0 < den * 2 ^ shiftOf num den := Nat.mul_pos h (Nat.two_pow_pos _)
  have hbelow := lt_of_shiftOf num h
  have habove := le_of_shiftOf num h
  obtain ⟨hhigh, hlow, -⟩ := divHalfEven_bounds num hpos
  generalize hspacing : den * 2 ^ shiftOf num den = spacing at *
  generalize divHalfEven num spacing = t at *
  constructor
  · by_contra hlt
    have hstep : (2 ^ 53 + 1) * spacing ≤ t * spacing := Nat.mul_le_mul_right spacing (by omega)
    omega
  · by_contra hneither
    have hstep : (t + 1) * spacing ≤ 2 ^ 52 * spacing := Nat.mul_le_mul_right spacing (by omega)
    rw [Nat.succ_mul] at hstep
    omega

theorem unitsAt_nearestRank (num : Nat) {den : Nat} (h : 0 < den) :
    unitsAt (nearestRank num den) =
      divHalfEven num (den * 2 ^ shiftOf num den) * 2 ^ shiftOf num den := by
  obtain ⟨hle, hk⟩ := significand_bounds num h
  rw [nearestRank_eq, unitsAt_scale hle hk]

/-- No rank is nearer, and none of another magnitude is as near unless the rank chosen is even. -/
theorem nearestRank_nearest (num : Nat) {den : Nat} (h : 0 < den) (rank : Nat) :
    ((unitsAt (nearestRank num den) * den : Nat) - num : Int).natAbs ≤
      ((unitsAt rank * den : Nat) - num : Int).natAbs ∧
      (((unitsAt rank * den : Nat) - num : Int).natAbs =
        ((unitsAt (nearestRank num den) * den : Nat) - num : Int).natAbs →
        unitsAt rank = unitsAt (nearestRank num den) ∨ nearestRank num den % 2 = 0) := by
  have hpos : 0 < den * 2 ^ shiftOf num den := Nat.mul_pos h (Nat.two_pow_pos _)
  have hnearest := divHalfEven_nearest num hpos
  have hfirst := le_of_shiftOf num h
  have heq := nearestRank_eq num den
  rw [unitsAt_nearestRank num h]
  generalize hk : shiftOf num den = k at *
  generalize divHalfEven num (den * 2 ^ k) = t at *
  have hchosen : t * 2 ^ k * den = t * (den * 2 ^ k) := by ring
  obtain ⟨k', t', rfl, ht', hk'⟩ := exists_scale rank
  rw [unitsAt_scale (Nat.le_of_lt ht') hk', hchosen]
  by_cases hle : k ≤ k'
  · -- The other magnitude is a multiple of the spacing at the value.
    have hother : t' * 2 ^ k' = t' * 2 ^ (k' - k) * 2 ^ k := by
      rw [Nat.mul_assoc, ← Nat.pow_add, Nat.sub_add_cancel hle]
    have hmultiple : t' * 2 ^ k' * den = t' * 2 ^ (k' - k) * (den * 2 ^ k) := by rw [hother]; ring
    rw [hmultiple, hother]
    obtain ⟨hdist, htie⟩ := hnearest (t' * 2 ^ (k' - k))
    refine ⟨hdist, fun hsame => ?_⟩
    rcases htie hsame with heven | heven
    · exact .inl (by rw [heven])
    · exact .inr (by omega)
  · -- It lies below the first magnitude of this spacing, which is below the value.
    have hbelow : t' * 2 ^ k' < 2 ^ 52 * 2 ^ k := by
      calc t' * 2 ^ k' < 2 ^ 53 * 2 ^ k' := Nat.mul_lt_mul_of_pos_right ht' (Nat.two_pow_pos k')
        _ = 2 ^ 52 * 2 ^ (k' + 1) := by ring
        _ ≤ 2 ^ 52 * 2 ^ k := Nat.mul_le_mul_left _ (Nat.pow_le_pow_right (by omega) (by omega))
    have hunder : t' * 2 ^ k' * den < 2 ^ 52 * (den * 2 ^ k) := by
      calc t' * 2 ^ k' * den < 2 ^ 52 * 2 ^ k * den := Nat.mul_lt_mul_of_pos_right hbelow h
        _ = 2 ^ 52 * (den * 2 ^ k) := by ring
    have hvalue : 2 ^ 52 * (den * 2 ^ k) ≤ num := hfirst (by omega)
    have hdist := (hnearest (2 ^ 52)).1
    omega

theorem unitsAt_nearestRank_of_dvd {num : Nat} (h : 2 ^ shiftOf num 1 ∣ num) :
    unitsAt (nearestRank num 1) = num := by
  obtain ⟨t, ht⟩ := h
  have hnearest :=
    (divHalfEven_nearest num (Nat.mul_pos Nat.one_pos (Nat.two_pow_pos (shiftOf num 1))) t).1
  rw [unitsAt_nearestRank num Nat.one_pos]
  simp only [Nat.one_mul] at hnearest ⊢
  rw [Nat.mul_comm] at ht
  omega

theorem unit_pos : 0 < unit := by
  unfold unit
  apply Nat.two_pow_pos

theorem two_pow_mul_unit (e : Nat) : 2 ^ e * unit = 2 ^ (e + 1074) := by
  rw [unit, Nat.pow_add]

theorem shiftOf_le {num n e : Nat} (hn : n < 2 ^ e) (h : num ≤ n * unit) :
    shiftOf num 1 ≤ e + 1021 := by
  rw [shiftOf, Nat.div_one]
  by_cases hzero : num = 0
  · rw [hzero]
    exact Nat.zero_le _
  · have hlt : num < 2 ^ (e + 1074) := by
      rw [← two_pow_mul_unit]
      exact Nat.lt_of_le_of_lt h (Nat.mul_lt_mul_of_pos_right hn unit_pos)
    have hlog := (Nat.log2_lt hzero).mpr hlt
    omega

theorem nearestRank_le {num n e : Nat} (hn : n < 2 ^ e) (h : num ≤ n * unit) :
    nearestRank num 1 ≤ (e + 1023) * 2 ^ 52 := by
  have hshift := shiftOf_le hn h
  have hle := (significand_bounds num Nat.one_pos).1
  rw [nearestRank_eq]
  omega

theorem unitsAt_zero : unitsAt 0 = 0 := rfl

/-- The rounding of a value in units: no double is nearer to it, and none of another value is as
near unless the rank is even. -/
structure Rounds (d : Double) (value : Int) : Prop where
  nearest : ∀ e : Double, (d.units - value).natAbs ≤ (e.units - value).natAbs
  even : ∀ e : Double, (e.units - value).natAbs = (d.units - value).natAbs →
    e.units = d.units ∨ d.rank % 2 = 0

theorem rounds_of_rank {d : Double} {value : Int} (hrank : d.rank = nearestRank value.natAbs 1)
    (hnegative : d.negative = true → value ≤ 0) (hpositive : d.negative = false → 0 ≤ value) :
    d.Rounds value := by
  have hnearest := nearestRank_nearest value.natAbs Nat.one_pos
  rw [← hrank] at hnearest
  simp only [Nat.mul_one] at hnearest
  -- A double on the other side of zero is no nearer than zero.
  have hzero := hnearest 0
  rw [unitsAt_zero] at hzero
  have hside (e : Double) : (d.units - value).natAbs ≤ (e.units - value).natAbs ∧
      ((e.units - value).natAbs = (d.units - value).natAbs →
        e.units = d.units ∨ d.rank % 2 = 0) := by
    have hother := hnearest e.rank
    unfold units
    cases hd : d.negative with
    | true =>
      have hvalue := hnegative hd
      cases e.negative with
      | true => simp only [if_true]; omega
      | false => simp only [if_true, if_false, Bool.false_eq_true]; omega
    | false =>
      have hvalue := hpositive hd
      cases e.negative with
      | true => simp only [if_true, if_false, Bool.false_eq_true]; omega
      | false => simp only [if_false, Bool.false_eq_true]; omega
  exact ⟨fun e => (hside e).1, fun e => (hside e).2⟩

section Rounds

variable {d e : Double} {v w : Int}

theorem Rounds.units_le (hd : d.Rounds v) (he : e.Rounds w) (h : v < w) : d.units ≤ e.units := by
  have hleft := hd.nearest e
  have hright := he.nearest d
  omega

theorem Rounds.natAbs_le (hd : d.Rounds v) : d.units.natAbs ≤ 2 * v.natAbs := by
  have hnearest := hd.nearest zero
  have hzero : zero.units = 0 := rfl
  omega

end Rounds

section OfInt

variable {m n : Int}

theorem natAbs_lt_of_fits (h : IntegerFits n) : n.natAbs < 2 ^ 65 := by
  unfold IntegerFits at h
  omega

theorem rank_ofInt (h : IntegerFits n) : (ofInt n).rank = nearestRank (n * unit).natAbs 1 := by
  have hle := nearestRank_le (natAbs_lt_of_fits h) (Nat.le_refl (n.natAbs * unit))
  have hmin : (ofInt n).rank = min (nearestRank (n.natAbs * unit) 1) (2047 * 2 ^ 52 - 1) := rfl
  rw [hmin, Int.natAbs_mul, Int.natAbs_natCast]
  omega

theorem rounds_ofInt (h : IntegerFits n) : (ofInt n).Rounds (n * unit) := by
  have hsign : (ofInt n).negative = decide (n < 0) := rfl
  apply rounds_of_rank (rank_ofInt h)
  · intro hnegative
    have hlt : n < 0 := by simpa [hsign] using hnegative
    exact Int.mul_nonpos_of_nonpos_of_nonneg (Int.le_of_lt hlt) (Int.natCast_nonneg unit)
  · intro hpositive
    have hle : 0 ≤ n := by simpa [hsign] using hpositive
    exact Int.mul_nonneg hle (Int.natCast_nonneg unit)

theorem units_ofInt_mono (hm : IntegerFits m) (hn : IntegerFits n) (h : m ≤ n) :
    (ofInt m).units ≤ (ofInt n).units := by
  rcases Int.lt_or_eq_of_le h with hlt | rfl
  · exact (rounds_ofInt hm).units_le (rounds_ofInt hn)
      (Int.mul_lt_mul_of_pos_right hlt (Int.natCast_pos.mpr unit_pos))
  · exact Int.le_refl _

theorem units_ofInt {e : Nat} (h : IntegerFits (m * 2 ^ e)) (hm : m.natAbs < 2 ^ 53) :
    (ofInt (m * 2 ^ e)).units = m * 2 ^ e * unit := by
  have habs : (m * 2 ^ e * unit : Int).natAbs = m.natAbs * 2 ^ (e + 1074) := by
    rw [← two_pow_mul_unit, Int.natAbs_mul, Int.natAbs_mul, Int.natAbs_pow, Int.natAbs_natCast,
      Nat.mul_assoc]
    rfl
  have hshift : shiftOf (m * 2 ^ e * unit : Int).natAbs 1 ≤ e + 1074 := by
    have hlt : m.natAbs * 2 ^ e < 2 ^ (53 + e) := by
      rw [Nat.pow_add 2 53]
      exact Nat.mul_lt_mul_of_pos_right hm (Nat.two_pow_pos e)
    have hle : shiftOf (m * 2 ^ e * unit : Int).natAbs 1 ≤ 53 + e + 1021 :=
      shiftOf_le hlt (by rw [habs, ← two_pow_mul_unit, Nat.mul_assoc])
    omega
  have hdvd : 2 ^ shiftOf (m * 2 ^ e * unit : Int).natAbs 1 ∣ (m * 2 ^ e * unit : Int).natAbs := by
    rw [habs] at hshift ⊢
    exact Dvd.dvd.mul_left (Nat.pow_dvd_pow 2 hshift) m.natAbs
  have hunits := unitsAt_nearestRank_of_dvd hdvd
  have hsign : (ofInt (m * 2 ^ e)).negative = decide (m * 2 ^ e < 0) := rfl
  rw [← rank_ofInt h] at hunits
  rw [units, hunits, hsign, Int.natAbs_mul, Int.natAbs_natCast, Int.natCast_mul]
  by_cases hlt : m * 2 ^ e < 0
  · rw [if_pos (decide_eq_true hlt), ← Int.neg_mul, Int.ofNat_natAbs_of_nonpos (Int.le_of_lt hlt),
      Int.neg_neg]
  · rw [if_neg (by simpa using hlt), Int.natAbs_of_nonneg (Int.not_lt.mp hlt)]

theorem units_ofInt_neg (h : IntegerFits n) (hn : n < 0) : (ofInt n).units < 0 := by
  have hone : (ofInt (-1 * 2 ^ 0)).units = -1 * 2 ^ 0 * unit := units_ofInt (by decide) (by decide)
  have hle :=
    units_ofInt_mono h (show IntegerFits (-1 * 2 ^ 0) by decide) (show n ≤ -1 * 2 ^ 0 by omega)
  have hpos := unit_pos
  omega

theorem rank_ofInt_pos (h : IntegerFits n) (hn : (ofInt n).negative = true) :
    (ofInt n).rank ≠ 0 := by
  intro hzero
  have hneg := units_ofInt_neg h (of_decide_eq_true hn)
  rw [units, hzero, unitsAt_zero] at hneg
  split at hneg <;> omega

end OfInt

section Keys

variable {a b : Double}

theorem key_lt_iff (a b : Double) : a.key < b.key ↔ a.units < b.units := by
  have hlt := unitsAt_strictMono.lt_iff_lt (a := a.rank) (b := b.rank)
  have hgt := unitsAt_strictMono.lt_iff_lt (a := b.rank) (b := a.rank)
  have hleft := unitsAt_strictMono.lt_iff_lt (a := 0) (b := a.rank)
  have hright := unitsAt_strictMono.lt_iff_lt (a := 0) (b := b.rank)
  rw [unitsAt_zero] at hleft hright
  unfold key units
  split <;> split <;> omega

theorem compare_congr {x y v w : Int} (hlt : x < y ↔ v < w) (hgt : y < x ↔ w < v) :
    compare x y = compare v w := by
  have heq : x = y ↔ v = w := by omega
  show compareOfLessAndEq x y = compareOfLessAndEq v w
  simp only [compareOfLessAndEq, hlt, heq]

theorem compare_key (a b : Double) : compare a.key b.key = compare a.units b.units :=
  compare_congr (key_lt_iff a b) (key_lt_iff b a)

theorem compare_totalKey (ha : a.negative = true → a.rank ≠ 0)
    (hb : b.negative = true → b.rank ≠ 0) :
    compare a.totalKey b.totalKey = compare a.units b.units := by
  rw [← compare_key]
  apply compare_congr
  · unfold totalKey key
    grind
  · unfold totalKey key
    grind

end Keys

theorem ofRank?_of_lt {negative : Bool} {rank : Nat} (h : rank < 2047 * 2 ^ 52) :
    ofRank? negative rank = some ⟨negative, rank, h⟩ := dif_pos h

theorem exists_round {value : Int} {n e : Nat} (hn : n < 2 ^ e) (he : e ≤ 1023)
    (h : value.natAbs ≤ n * unit) (negativeZero : Bool) :
    ∃ d, round value negativeZero = .ok d ∧ d.Rounds value := by
  have hfinite : nearestRank value.natAbs 1 < 2047 * 2 ^ 52 := by
    have hle := nearestRank_le hn h
    omega
  rw [round, ofRank?_of_lt hfinite]
  refine ⟨_, rfl, rounds_of_rank rfl (fun hnegative => ?_) fun hpositive => ?_⟩
  · simp only [Bool.or_eq_true, Bool.and_eq_true, decide_eq_true_eq, beq_iff_eq] at hnegative
    omega
  · simp only [Bool.or_eq_false_iff, decide_eq_false_iff_not] at hpositive
    omega

end Double

end DocumentStore
