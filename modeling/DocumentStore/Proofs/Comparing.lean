import DocumentStore.Proofs.Equality
import DocumentStore.Proofs.Integers

/-!
Order and equality. What the ordering operators read of two values and what the equality rule reads
of them are defined apart; but values that have an order have that of two flags, doubles, texts or
instants, and among them the rule holds for those that tie and for those that carry one id.
-/

namespace DocumentStore

namespace Instant

variable {t u : Instant}

theorem swap_compare (t u : Instant) : (t.compare u).swap = u.compare t := by
  rw [compare, compare, Ordering.swap_then, ← Std.OrientedOrd.eq_swap, ← Std.OrientedOrd.eq_swap]

theorem compare_eq_eq_iff : t.compare u = .eq ↔ t = u := by
  obtain ⟨s, n⟩ := t
  obtain ⟨s', n'⟩ := u
  rw [compare, Ordering.then_eq_eq, Int.compare_eq_eq, Nat.compare_eq_eq, mk.injEq]

end Instant

namespace Value

variable {v w : Value} {t u : Instant} {order : Ordering}

theorem instant?_cases (h : v.instant? = some t) :
    (∃ text, v = .str text ∧ Instant.parse? text = some t) ∨
      ∃ fields, v = .obj fields ∧ (obj fields).dateInstant? = some t := by
  cases v with
  | str text => exact .inl ⟨text, rfl, h⟩
  | obj fields => exact .inr ⟨fields, rfl, h⟩
  | _ => cases h

theorem isDate_of_dateInstant? (h : v.dateInstant? = some t) : v.isDate = true :=
  (Option.ite_none_right_eq_some.mp h).1

/-- The order of two values that have one. Texts are instants beside a tagged date, and texts
otherwise. -/
inductive Compared : Value → Value → Ordering → Prop where
  | bool (a b : Bool) : Compared (.bool a) (.bool b) (compare a b)
  | num (m n : Number) : Compared (.num m) (.num n) (compare m.toDouble.key n.toDouble.key)
  | str (a b : String) : Compared (.str a) (.str b) (compare a b)
  | instants {v w : Value} {t u : Instant} (left : v.instant? = some t)
      (right : w.instant? = some u)
      (tagged : (v.isDate || w.isDate) = true) : Compared v w (t.compare u)

theorem compared_of_compare?
    (h : (Comparable.ofValue v).compare? (Comparable.ofValue w) = some order) :
    v.Compared w order := by
  cases v with
  | null | arr items => cases h
  | bool a =>
    cases w with
    | bool b => exact Option.some.inj h ▸ .bool a b
    | obj fields =>
      simp only [Comparable.ofValue] at h
      split at h <;> cases h
    | _ => cases h
  | num m =>
    cases w with
    | num n => exact Option.some.inj h ▸ .num m n
    | obj fields =>
      simp only [Comparable.ofValue] at h
      split at h <;> cases h
    | _ => cases h
  | str a =>
    cases w with
    | str b => exact Option.some.inj h ▸ .str a b
    | obj fields =>
      simp only [Comparable.ofValue] at h
      split at h
      · rename_i u hdate
        obtain ⟨t, ht, rfl⟩ := Option.map_eq_some_iff.mp h
        exact .instants ht hdate (isDate_of_dateInstant? hdate)
      · cases h
    | _ => cases h
  | obj fields =>
    simp only [Comparable.ofValue] at h
    split at h
    · rename_i t hdate
      have htagged := isDate_of_dateInstant? hdate
      cases w with
      | str b =>
        obtain ⟨u, hu, rfl⟩ := Option.map_eq_some_iff.mp h
        exact .instants hdate hu (by rw [htagged, Bool.true_or])
      | obj fields' =>
        simp only at h
        split at h
        · rename_i u hdate'
          exact Option.some.inj h ▸ .instants hdate hdate' (by rw [htagged, Bool.true_or])
        · cases h
      | _ => cases h
    · cases w <;> cases h

theorem Compared.compare?_eq (h : v.Compared w order) :
    (Comparable.ofValue v).compare? (Comparable.ofValue w) = some order := by
  cases h with
  | bool a b | num m n | str a b => rfl
  | instants left right tagged =>
    obtain ⟨a, rfl, ha⟩ | ⟨fields, rfl, hdate⟩ := instant?_cases left
    · obtain ⟨b, rfl, -⟩ | ⟨fields', rfl, hdate'⟩ := instant?_cases right
      · cases tagged
      · simp only [Comparable.ofValue, hdate', Comparable.compare?, ha, Option.map_some]
    · obtain ⟨b, rfl, hb⟩ | ⟨fields', rfl, hdate'⟩ := instant?_cases right
      · simp only [Comparable.ofValue, hdate, Comparable.compare?, hb, Option.map_some]
      · simp only [Comparable.ofValue, hdate, hdate', Comparable.compare?]

theorem compareField?_eq_some_iff : compareField? (some v) w = some order ↔ v.Compared w order :=
  ⟨compared_of_compare?, Compared.compare?_eq⟩

theorem Compared.swap (h : v.Compared w order) : w.Compared v order.swap := by
  cases h with
  | bool a b =>
    rw [← Std.OrientedOrd.eq_swap]
    exact .bool b a
  | num m n =>
    rw [← Std.OrientedOrd.eq_swap]
    exact .num n m
  | str a b =>
    rw [← Std.OrientedOrd.eq_swap]
    exact .str b a
  | instants left right tagged =>
    rw [Instant.swap_compare]
    rw [Bool.or_comm] at tagged
    exact .instants right left tagged

theorem sameObjectId_eq_false (h : v.objectId? = none) : v.sameObjectId w = false := by
  rw [sameObjectId, h, Option.any_none]

theorem fieldEquals_instants (hv : v.instant? = some t) (hw : w.instant? = some u)
    (tagged : (v.isDate || w.isDate) = true) :
    fieldEquals (some v) (some w) = true ↔ t = u ∨ v.sameObjectId w = true := by
  have hrule : fieldEquals (some v) (some w) = v.agrees w := by
    obtain ⟨a, rfl, -⟩ | ⟨fields, rfl, -⟩ := instant?_cases hv <;>
      obtain ⟨b, rfl, -⟩ | ⟨fields', rfl, -⟩ := instant?_cases hw <;>
        simp only [fieldEquals, present?, holds]
  have hinstant : v.sameInstant w = true ↔ t = u := by
    rw [sameInstant, tagged, Bool.true_and, hv, hw, Option.any_some, beq_iff_eq,
      Option.some.injEq, eq_comm]
  have hequal (h : v.equal w = true) : t = u := by
    have hsame := instant?_eq h
    rw [hv, hw] at hsame
    exact Option.some.inj hsame
  rw [hrule, agrees, Bool.or_eq_true, Bool.or_eq_true, hinstant]
  constructor
  · rintro ((h | h) | h)
    · exact .inl (hequal h)
    · exact .inr h
    · exact .inl h
  · rintro (h | h)
    · exact .inr h
    · exact .inl (.inr h)

theorem Compared.fieldEquals_iff (h : v.Compared w order) :
    fieldEquals (some v) (some w) = true ↔ order = .eq ∨ v.sameObjectId w = true := by
  cases h with
  | bool a b => cases a <;> cases b <;> decide
  | num m n =>
    rw [fieldEquals_num, equal_num, Ordering.isEq_iff_eq_eq, sameObjectId_eq_false rfl]
    simp
  | str a b =>
    have hrule : fieldEquals (some (.str a)) (some (.str b)) = ((a == b) || false || false) := rfl
    rw [hrule, sameObjectId_eq_false rfl, Bool.or_false, Bool.or_false, beq_iff_eq,
      Std.LawfulEqOrd.compare_eq_iff_eq]
    simp
  | instants left right tagged =>
    rw [fieldEquals_instants left right tagged, Instant.compare_eq_eq_iff]

end Value

theorem compareField?_swap (x : Option Value) (y : Value) :
    compareField? (some y) (x.getD .null) = (compareField? x y).map Ordering.swap := by
  cases x with
  | none =>
    have hnone : compareField? (some y) .null = none := by
      refine Option.eq_none_iff_forall_ne_some.mpr fun order h => ?_
      cases Value.compareField?_eq_some_iff.mp h with
      | instants _ right => cases right
    exact hnone
  | some v =>
    refine Option.ext fun order => ?_
    rw [Option.getD_some, Value.compareField?_eq_some_iff, Option.map_eq_some_iff]
    constructor
    · intro h
      exact ⟨order.swap, Value.compareField?_eq_some_iff.mpr h.swap, Ordering.swap_swap⟩
    · rintro ⟨reverse, h, rfl⟩
      exact (Value.compareField?_eq_some_iff.mp h).swap

/--
The ordering operators and the equality operator agree. Swapping a field and a parameter reverses
their order. Where they tie, `$lte`, `$gte` and `$eq` hold; where one is strictly less, `$lt` or
`$gt` holds, and `$eq` does just if both carry one id. A tagged date beside another one or a text is
compared by the instants that the two denote, in whatever offset these are written.
-/
theorem ordering_agrees_with_equality (contents : Contents) (find : Find) (options : Option String)
    (x : Option Value) (y : Value) :
    let answer (op : Operator) := op.holds contents find x y options
    compareField? (some y) (x.getD .null) = (compareField? x y).map Ordering.swap ∧
    (answer .lte = .ok true ∧ answer .gte = .ok true ↔ compareField? x y = some .eq) ∧
    (answer .lt = .ok true ↔ compareField? x y = some .lt) ∧
    (answer .gt = .ok true ↔ compareField? x y = some .gt) ∧
    (compareField? x y = some .eq → answer .eq = .ok true) ∧
    (compareField? x y = some .lt ∨ compareField? x y = some .gt →
      answer .eq = .ok (x.any (·.sameObjectId y))) ∧
    (∀ v t u, x = some v → v.instant? = some t → y.instant? = some u →
      (v.isDate || y.isDate) = true →
      compareField? x y = some (t.compare u)) := by
  intro answer
  have hlt : answer .lt = .ok (compareField? x y == some .lt) := rfl
  have hgt : answer .gt = .ok (compareField? x y == some .gt) := rfl
  have hlte : answer .lte = .ok (compareField? x y == some .lt || compareField? x y == some .eq) :=
    rfl
  have hgte : answer .gte = .ok (compareField? x y == some .gt || compareField? x y == some .eq) :=
    rfl
  have heq : answer .eq = .ok (fieldEquals x (some y)) := rfl
  have hrule {order : Ordering} (h : compareField? x y = some order) :
      fieldEquals x (some y) = true ↔ order = .eq ∨ x.any (·.sameObjectId y) = true := by
    obtain ⟨v, rfl, hv⟩ := Option.bind_eq_some_iff.mp h
    exact (Value.compared_of_compare? hv).fieldEquals_iff
  refine ⟨compareField?_swap x y, ?ties, ?less, ?greater, ?equal, ?strict, ?instants⟩
  case ties =>
    rw [hlte, hgte, Except.ok.injEq, Except.ok.injEq]
    cases compareField? x y with
    | none => decide
    | some order => cases order <;> decide
  case less => rw [hlt, Except.ok.injEq, beq_iff_eq]
  case greater => rw [hgt, Except.ok.injEq, beq_iff_eq]
  case equal =>
    intro h
    rw [heq, (hrule h).mpr (.inl rfl)]
  case strict =>
    intro h
    rw [heq, Except.ok.injEq, Bool.eq_iff_iff]
    rcases h with h | h
    · rw [hrule h]
      exact or_iff_right nofun
    · rw [hrule h]
      exact or_iff_right nofun
  case instants =>
    rintro v t u rfl hv hy tagged
    exact Value.compareField?_eq_some_iff.mpr (.instants hv hy tagged)

example : compareField? (some (.str "2026-01-01T00:00:00Z"))
    (.obj [("__type", .str "Date"), ("iso", .str "2026-01-01T01:30:00+01:30")]) = some .eq := by
  decide +kernel

end DocumentStore
