import DocumentStore.Query.Matching
import DocumentStore.Update.Apply
import DocumentStore.Proofs.Rounding

/-!
The comparison of integers. Equality, the ordering operators, sorting, and the operators on lists
compare the doubles nearest to two integers. They never turn the order of integers round, but beyond
`2 ^ 53` they take some different ones for the same.
-/

namespace DocumentStore

def Operator.Answers (op : Operator) (field param : Value) (answer : Bool) : Prop :=
  ∀ contents find options, op.holds contents find (some field) param options = .ok answer

/-- Whatever compares a stored value with another one finds them in this order. -/
structure Value.ComparesAs (x y : Value) (order : Ordering) : Prop where
  equal : x.equal y = order.isEq
  eq : Operator.eq.Answers x y order.isEq
  lt : Operator.lt.Answers x y order.isLT
  lte : Operator.lte.Answers x y order.isLE
  gt : Operator.gt.Answers x y order.isGT
  gte : Operator.gte.Answers x y order.isGE
  sorts : sortCompare (some x) (some y) = order
  unites : ∀ before after, (∀ e ∈ before ++ after, e.sameEntry y = false) →
    UpdateOp.unite (before ++ x :: after) [y] =
      before ++ x :: after ++ if order = .eq then [] else [y]
  removes : ∀ before after, UpdateOp.withoutObjects (before ++ x :: after) [y] =
    UpdateOp.withoutObjects before [y] ++ (if order = .eq then [] else [x]) ++
      UpdateOp.withoutObjects after [y]

namespace Value

variable {m n : Number}

theorem equal_num (m n : Number) :
    (num m).equal (num n) = (compare m.toDouble.key n.toDouble.key).isEq := by
  rw [equal, Number.sameValue, Bool.eq_iff_iff, beq_iff_eq, Ordering.isEq_iff_eq_eq,
    Int.compare_eq_eq]

theorem fieldEquals_num (m n : Number) :
    fieldEquals (some (num m)) (some (num n)) = (num m).equal (num n) := by
  show ((num m).equal (num n) || false || false) = (num m).equal (num n)
  rw [Bool.or_false, Bool.or_false]

theorem sameEntry_num (m n : Number) : (num m).sameEntry (num n) = (num m).equal (num n) :=
  Bool.or_false _

theorem comparesAs_num
    (h : compare m.toDouble.totalKey n.toDouble.totalKey = compare m.toDouble.key n.toDouble.key) :
    (num m).ComparesAs (num n) (compare m.toDouble.key n.toDouble.key) := by
  have hcompare :
      compareField? (some (num m)) (num n) = some (compare m.toDouble.key n.toDouble.key) := rfl
  have hsort : sortCompare (some (num m)) (some (num n)) =
      compare m.toDouble.totalKey n.toDouble.totalKey := rfl
  have hequal := equal_num m n
  have hfield := (fieldEquals_num m n).trans hequal
  have hremoved : fieldEquals (some (num n)) (some (num m)) = (num m).equal (num n) := by
    rw [fieldEquals_num, equal, equal, Number.sameValue, Number.sameValue, Bool.beq_comm]
  generalize compare m.toDouble.key n.toDouble.key = order at *
  refine ⟨hequal, fun _ _ _ => congrArg Except.ok hfield, ?lt, ?lte, ?gt, ?gte, hsort.trans h,
    ?unites, ?removes⟩
  case lt | lte | gt | gte =>
    intro contents find options
    simp only [Operator.holds, hcompare]
    cases order <;> rfl
  case unites =>
    intro before after hothers
    have hentry := (sameEntry_num m n).trans hequal
    have hnone (entries : List Value) (h : ∀ e ∈ entries, e.sameEntry (num n) = false) :
        entries.any (·.sameEntry (num n)) = false :=
      List.any_eq_false.mpr fun e he => Bool.eq_false_iff.mp (h e he)
    have hbefore := hnone before fun e he => hothers e (List.mem_append_left after he)
    have hafter := hnone after fun e he => hothers e (List.mem_append_right before he)
    have hany : (before ++ num m :: after).any (·.sameEntry (num n)) = order.isEq := by
      rw [List.any_append, List.any_cons, hbefore, hafter, hentry, Bool.false_or, Bool.or_false]
    simp only [UpdateOp.unite, List.foldl_cons, List.foldl_nil, hany]
    cases order <;> simp
  case removes =>
    intro before after
    simp only [UpdateOp.withoutObjects, List.filter_append, List.filter_cons, List.any_cons,
      List.any_nil, hremoved, hequal]
    cases order <;> simp

end Value

namespace Double

variable {a b : Int}

theorem units_ofInt_of_le {n : Int} (h : n.natAbs ≤ 2 ^ 53) : (ofInt n).units = n * unit := by
  have hcases : n.natAbs < 2 ^ 53 ∨ n = 1 * 2 ^ 53 ∨ n = -1 * 2 ^ 53 := by omega
  rcases hcases with hlt | rfl | rfl
  · have hfits : IntegerFits (n * 2 ^ 0) := by
      unfold IntegerFits
      omega
    simpa only [pow_zero, mul_one] using units_ofInt hfits hlt
  · exact units_ofInt (by decide) (by decide)
  · exact units_ofInt (by decide) (by decide)

theorem units_ofInt_lt (ha : IntegerFits a) (hb : IntegerFits b) (hlt : a < b)
    (h : a.natAbs < 2 ^ 53 ∨ b.natAbs < 2 ^ 53) : (ofInt a).units < (ofInt b).units := by
  have hpos : (0 : Int) < unit := Int.natCast_pos.mpr unit_pos
  rcases h with hsmall | hsmall
  · have hnext : IntegerFits (a + 1) := by
      unfold IntegerFits
      omega
    calc (ofInt a).units = a * unit := units_ofInt_of_le (Nat.le_of_lt hsmall)
      _ < (a + 1) * unit := Int.mul_lt_mul_of_pos_right (Int.lt_succ a) hpos
      _ = (ofInt (a + 1)).units := (units_ofInt_of_le (by omega)).symm
      _ ≤ (ofInt b).units := units_ofInt_mono hnext hb hlt
  · have hprevious : IntegerFits (b - 1) := by
      unfold IntegerFits
      omega
    calc (ofInt a).units ≤ (ofInt (b - 1)).units :=
      units_ofInt_mono ha hprevious (Int.le_sub_one_of_lt hlt)
      _ = (b - 1) * unit := units_ofInt_of_le (by omega)
      _ < b * unit := Int.mul_lt_mul_of_pos_right (by omega) hpos
      _ = (ofInt b).units := (units_ofInt_of_le (Nat.le_of_lt hsmall)).symm

theorem compare_units_of_ne (ha : IntegerFits a) (hb : IntegerFits b)
    (h : compare (ofInt a).units (ofInt b).units ≠ .eq) :
    compare (ofInt a).units (ofInt b).units = compare a b := by
  have hle := units_ofInt_mono ha hb
  have hge := units_ofInt_mono hb ha
  rw [ne_eq, Int.compare_eq_eq] at h
  apply compare_congr
  · omega
  · omega

end Double

section Integers

variable (a b : Int) (ha : IntegerFits a) (hb : IntegerFits b)

theorem comparesAs_integers :
    (Value.num (.int a ha)).ComparesAs (.num (.int b hb))
      (compare (Double.ofInt a).units (Double.ofInt b).units) := by
  have htotal := Double.compare_totalKey (Double.rank_ofInt_pos ha) (Double.rank_ofInt_pos hb)
  rw [← Double.compare_key] at htotal ⊢
  exact Value.comparesAs_num htotal

/--
Two integers compare as the doubles nearest to them, in every comparison. Where these differ that is
the order of the integers, and they do differ for different integers as soon as one of the two is
below `2 ^ 53` in magnitude.
-/
theorem integers_compare_as_doubles :
    ∃ order, (Value.num (.int a ha)).ComparesAs (.num (.int b hb)) order ∧
      order = compare (Double.ofInt a).units (Double.ofInt b).units ∧
      (Double.ofInt a).Rounds (a * Double.unit) ∧ (Double.ofInt b).Rounds (b * Double.unit) ∧
      (order ≠ .eq → order = compare a b) ∧
      (a.natAbs < 2 ^ 53 ∨ b.natAbs < 2 ^ 53 → order = compare a b) := by
  refine ⟨_, comparesAs_integers a b ha hb, rfl, Double.rounds_ofInt ha, Double.rounds_ofInt hb,
    Double.compare_units_of_ne ha hb, fun hsmall => ?_⟩
  have hlt : a < b → (Double.ofInt a).units < (Double.ofInt b).units :=
    fun h => Double.units_ofInt_lt ha hb h hsmall
  have hgt : b < a → (Double.ofInt b).units < (Double.ofInt a).units :=
    fun h => Double.units_ofInt_lt hb ha h hsmall.symm
  have hle := Double.units_ofInt_mono ha hb
  have hge := Double.units_ofInt_mono hb ha
  apply Double.compare_congr
  · omega
  · omega

theorem integers_compare_as_doubles_far :
    IntegerFits (2 ^ 63) ∧ IntegerFits (2 ^ 63 + 1025) ∧
      (Value.num (.int (2 ^ 63) (by decide))).ComparesAs
        (.num (.int (2 ^ 63 + 1025) (by decide))) .lt := by
  obtain ⟨order, hcompares, horder, -⟩ :=
    integers_compare_as_doubles (2 ^ 63) (2 ^ 63 + 1025) (by decide) (by decide)
  have hless : compare (Double.ofInt (2 ^ 63)).units (Double.ofInt (2 ^ 63 + 1025)).units =
      .lt := by decide +kernel
  exact ⟨by decide, by decide, horder.trans hless ▸ hcompares⟩

/-- Beyond `2 ^ 53` doubles are two apart, so an odd integer is taken for an even one next to it. -/
theorem neighbours_compare_equal :
    compare (2 ^ 53 : Int) (2 ^ 53 + 1) = .lt ∧
      (Value.num (.int (2 ^ 53) (by decide))).ComparesAs
        (.num (.int (2 ^ 53 + 1) (by decide))) .eq := by
  have hunits : compare (Double.ofInt (2 ^ 53)).units (Double.ofInt (2 ^ 53 + 1)).units = .eq := by
    decide +kernel
  exact ⟨by decide, hunits ▸ comparesAs_integers _ _ (by decide) (by decide)⟩

end Integers

end DocumentStore
