import DocumentStore.Proofs.Operators
import DocumentStore.Proofs.Rounding

/-!
Increments of integers. The sum is an integer while the two and their sum stay below `2 ^ 63`.
Beyond that it is one of doubles and rounded, although documents hold integers up to `2 ^ 64`.
-/

namespace DocumentStore

variable {m n : Int}

theorem Double.exists_add_ofInt (hm : IntegerFits m) (hn : IntegerFits n) :
    ∃ d, (ofInt m).add (ofInt n) = .ok d ∧ d.Rounds ((ofInt m).units + (ofInt n).units) := by
  have hleft := natAbs_lt_of_fits hm
  have hright := natAbs_lt_of_fits hn
  have hbound : ((ofInt m).units + (ofInt n).units).natAbs ≤ 2 * (m.natAbs + n.natAbs) * unit :=
    calc ((ofInt m).units + (ofInt n).units).natAbs
        ≤ (ofInt m).units.natAbs + (ofInt n).units.natAbs := Int.natAbs_add_le _ _
      _ ≤ 2 * (m * unit : Int).natAbs + 2 * (n * unit : Int).natAbs :=
          Nat.add_le_add (rounds_ofInt hm).natAbs_le (rounds_ofInt hn).natAbs_le
      _ = 2 * (m.natAbs + n.natAbs) * unit := by
          rw [Int.natAbs_mul, Int.natAbs_mul, Int.natAbs_natCast]
          ring
  exact exists_round (e := 67) (by omega) (by decide) hbound _

namespace Number

def AddsExactly (m n : Int) : Prop := m < 2 ^ 63 ∧ n < 2 ^ 63 ∧ -2 ^ 63 ≤ m + n ∧ m + n < 2 ^ 63

instance (m n : Int) : Decidable (AddsExactly m n) := inferInstanceAs (Decidable (_ ∧ _))

theorem add_of_addsExactly (hm : IntegerFits m) (hn : IntegerFits n) (h : AddsExactly m n) :
    ∃ fits, (int m hm).add (int n hn) = .ok (int (m + n) fits) := by
  unfold AddsExactly at h
  have hfits : IntegerFits (m + n) := by
    unfold IntegerFits
    omega
  unfold add
  dsimp only
  split
  · exact ⟨hfits, rfl⟩
  · exact absurd h (by omega)

theorem add_of_not_addsExactly (hm : IntegerFits m) (hn : IntegerFits n) (h : ¬ AddsExactly m n)
    {d : Double} (hd : (Double.ofInt m).add (Double.ofInt n) = .ok d) :
    (int m hm).add (int n hn) = .ok (double d) := by
  unfold AddsExactly at h
  unfold add
  dsimp only
  split
  · exact absurd ‹_› (by omega)
  · rw [toDouble, toDouble, hd, add.ofSum]

theorem exists_add_int (hm : IntegerFits m) (hn : IntegerFits n) :
    ∃ total, (int m hm).add (int n hn) = .ok total ∧
      ((∃ fits, total = int (m + n) fits) ↔ AddsExactly m n) ∧
      ((¬ ∃ fits, total = int (m + n) fits) →
        ∃ d, total = double d ∧ d.Rounds ((Double.ofInt m).units + (Double.ofInt n).units)) := by
  by_cases h : AddsExactly m n
  · obtain ⟨fits, hadd⟩ := add_of_addsExactly hm hn h
    exact ⟨_, hadd, ⟨fun _ => h, fun _ => ⟨fits, rfl⟩⟩, fun hnot => absurd ⟨fits, rfl⟩ hnot⟩
  · obtain ⟨d, hd, hrounds⟩ := Double.exists_add_ofInt hm hn
    exact ⟨_, add_of_not_addsExactly hm hn h hd,
      ⟨fun ⟨_, hint⟩ => (nomatch hint), fun hfits => absurd hfits h⟩, fun _ => ⟨d, rfl, hrounds⟩⟩

end Number

namespace UpdateOp

variable {record : Record} {field : String} {current : Option Value}

/-- What an increment adds to: an integer, or zero in place of nothing. -/
inductive CountsAs : Option Value → Int → Prop where
  | absent : CountsAs none 0
  | null : CountsAs (some .null) 0
  | integer (m : Int) (fits : IntegerFits m) : CountsAs (some (.num (.int m fits))) m

theorem CountsAs.fits (h : CountsAs current m) : IntegerFits m := by
  cases h with
  | absent => decide
  | null => decide
  | integer m fits => exact fits

theorem result_increment (h : CountsAs current m) (field : String) {fits : IntegerFits m}
    {amount total : Number} (hadd : (Number.int m fits).add amount = .ok total) :
    (increment amount).result field current = .ok (some (.num total)) := by
  have hsum : incremented field amount current = incremented.sum field amount (.int m fits) := by
    cases h <;> rfl
  rw [result, hsum, incremented.sum, hadd]
  rfl

/--
An increment of an integer by an integer always gives a number. It is the sum, as an integer,
exactly when the two and the sum fit 63 bits and a sign. Else it is the double nearest to the sum of
the doubles nearest to them, even if an integer could hold the sum.
-/
theorem increment_integers (hm : CountsAs (KeyMap.get? record field) m) (hn : IntegerFits n) :
    ∃ total, (increment (.int n hn)).Leaves record field (some (.num total)) ∧
      ((∃ fits, total = .int (m + n) fits) ↔ Number.AddsExactly m n) ∧
      ((¬ ∃ fits, total = .int (m + n) fits) →
        ∃ d, total = .double d ∧ d.Rounds ((Double.ofInt m).units + (Double.ofInt n).units) ∧
          (Double.ofInt m).Rounds (m * Double.unit) ∧
          (Double.ofInt n).Rounds (n * Double.unit)) := by
  have fits : IntegerFits m := hm.fits
  obtain ⟨total, hadd, hexact, hrounded⟩ := Number.exists_add_int fits hn
  refine ⟨total, leaves_of_result (result_increment hm field hadd), hexact, fun hnot => ?_⟩
  obtain ⟨d, hd, hrounds⟩ := hrounded hnot
  exact ⟨d, hd, hrounds, Double.rounds_ofInt fits, Double.rounds_ofInt hn⟩

theorem increment_integers_least :
    CountsAs (KeyMap.get? [("count", .num (.int (-2 ^ 63) (by decide)))] "count") (-2 ^ 63) ∧
    IntegerFits (2 ^ 63 - 1) ∧
      (increment (.int (2 ^ 63 - 1) (by decide))).Leaves
        [("count", .num (.int (-2 ^ 63) (by decide)))] "count"
        (some (.num (.int (-1) (by decide)))) := by
  have hcount :
      CountsAs (KeyMap.get? [("count", .num (.int (-2 ^ 63) (by decide)))] "count") (-2 ^ 63) :=
        .integer _ _
  obtain ⟨total, hleaves, hexact, -⟩ :=
    increment_integers hcount (show IntegerFits (2 ^ 63 - 1) by decide)
  obtain ⟨fits, rfl⟩ := hexact.mpr (by decide)
  exact ⟨hcount, by decide, hleaves⟩

/-- One taken from `2 ^ 63` leaves a double, of the value `2 ^ 63`, where there is an integer for
the difference. -/
theorem increment_rounds_below :
    (increment (.int (-1) (by decide))).Leaves [("count", .num (.int (2 ^ 63) (by decide)))] "count"
      (some (.num (.double (Double.ofInt (2 ^ 63))))) ∧ IntegerFits (2 ^ 63 + -1) := by
  have hadd : (Double.ofInt (2 ^ 63)).add (Double.ofInt (-1)) = .ok (Double.ofInt (2 ^ 63)) := by
    decide +kernel
  have hsum := Number.add_of_not_addsExactly (by decide) (by decide) (by decide) hadd
  exact ⟨leaves_of_result (result_increment (.integer _ _) "count" hsum), by decide⟩

end UpdateOp

end DocumentStore
