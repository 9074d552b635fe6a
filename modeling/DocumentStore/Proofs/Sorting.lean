import DocumentStore.Proofs.Comparing
import DocumentStore.Proofs.Ordering
import DocumentStore.Proofs.Reading

/-!
Sorted matches. Sorting puts the matches of a query in the order of its sort keys, the first on
which two records differ deciding, and leaves those that tie on all of them as they were created.
Its order is that of the ordering operators wherever these have one, but for a text beside a tagged
date, and for zeros, of which it tells the signs apart.
-/

namespace DocumentStore

theorem sortCompare_eq :
    sortCompare = compareOn fun field : Option Value =>
      (field.map Comparable.ofValue).getD .null := by
  funext left right
  exact Comparable.order_eq_byKeys _ _

/-- Sorting compares any two fields, absent or not: to swap them reverses their order, and the order
is transitive. -/
instance transCmp_sortCompare : Std.TransCmp sortCompare := by
  rw [sortCompare_eq]
  infer_instance

namespace SortKey

def Ties (key : SortKey) (a b : Record) : Prop :=
  sortCompare (KeyMap.get? a key.field) (KeyMap.get? b key.field) = .eq

def Precedes (key : SortKey) (a b : Record) : Prop :=
  sortCompare (KeyMap.get? a key.field) (KeyMap.get? b key.field) =
    if key.descending then .gt else .lt

instance (key : SortKey) (a b : Record) : Decidable (key.Ties a b) :=
  inferInstanceAs (Decidable (_ = _))

end SortKey

section Keys

variable {keys before : List SortKey} {key : SortKey} {a b c : Record}

theorem compareBy_cons_eq_eq_iff :
    compareBy (key :: keys) a b = .eq ↔ key.Ties a b ∧ compareBy keys a b = .eq := by
  rw [compareBy, Ordering.then_eq_eq, SortKey.Ties]
  generalize sortCompare (KeyMap.get? a key.field) (KeyMap.get? b key.field) = order
  cases key.descending <;> simp

theorem compareBy_eq_eq_iff : compareBy keys a b = .eq ↔ ∀ k ∈ keys, k.Ties a b := by
  induction keys with
  | nil => exact iff_of_true rfl nofun
  | cons k keys ih => rw [compareBy_cons_eq_eq_iff, ih, List.forall_mem_cons]

theorem compareBy_append_of_ties (h : ∀ k ∈ before, k.Ties a b) :
    compareBy (before ++ keys) a b = compareBy keys a b := by
  induction before with
  | nil => rfl
  | cons k before ih =>
    obtain ⟨hk, hbefore⟩ := List.forall_mem_cons.mp h
    have hsame : sortCompare (KeyMap.get? a k.field) (KeyMap.get? b k.field) = .eq := hk
    rw [List.cons_append, compareBy, hsame, ih hbefore]
    cases k.descending <;> rfl

theorem precedes_of_compareBy {after : List SortKey} (hties : ∀ k ∈ before, k.Ties a b)
    (hdiffer : ¬ key.Ties a b) (h : compareBy (before ++ key :: after) a b ≠ .gt) :
    key.Precedes a b := by
  rw [compareBy_append_of_ties hties, compareBy] at h
  unfold SortKey.Ties at hdiffer
  unfold SortKey.Precedes
  generalize sortCompare (KeyMap.get? a key.field) (KeyMap.get? b key.field) = order at h hdiffer ⊢
  generalize key.descending = descending at h ⊢
  cases order with
  | eq => exact absurd rfl hdiffer
  | lt =>
    cases descending with
    | false => rfl
    | true => exact absurd rfl h
  | gt =>
    cases descending with
    | false => exact absurd rfl h
    | true => rfl

theorem compareBy_eq_of_common (hb : compareBy keys a b = .eq) (hc : compareBy keys a c = .eq) :
    compareBy keys b c = .eq :=
  Std.TransCmp.eq_trans (Std.OrientedCmp.eq_symm hb) hc

end Keys

/--
A list holds given records in the order of sort keys: for two of them the first key that does not
tie has put the earlier one before the later one, and those that tie with one record on all keys
stand in the order in which they were given.
-/
structure Sorts (keys : List SortKey) (records sorted : List Record) : Prop where
  perm : sorted.Perm records
  decided : sorted.Pairwise fun a b => ∀ before key after, keys = before ++ key :: after →
    (∀ k ∈ before, k.Ties a b) → ¬ key.Ties a b → key.Precedes a b
  stable : ∀ record, sorted.filter (fun other => ∀ key ∈ keys, key.Ties record other) =
    records.filter (fun other => ∀ key ∈ keys, key.Ties record other)

theorem sorts_sortRecords (keys : List SortKey) (records : List Record) :
    Sorts keys records (sortRecords keys records) where
  perm := List.mergeSort_perm _ _
  decided := by
    have hsorted :
        (sortRecords keys records).Pairwise fun a b => (compareBy keys a b != .gt) = true :=
      List.pairwise_mergeSort (compareBy_trans keys) (compareBy_total keys) records
    refine hsorted.imp fun {a b} hab before key after hkeys hties hdiffer => ?_
    rw [hkeys, bne_iff_ne] at hab
    exact precedes_of_compareBy hties hdiffer hab
  stable record := by
    let tied (other : Record) : Bool := ∀ key ∈ keys, key.Ties record other
    have hpairwise :
        (records.filter tied).Pairwise fun a b => (compareBy keys a b != .gt) = true := by
      refine List.pairwise_of_forall_mem_list fun a ha b hb => ?_
      have htied (other : Record) (ho : other ∈ records.filter tied) :
          compareBy keys record other = .eq :=
        compareBy_eq_eq_iff.mpr (decide_eq_true_eq.mp (List.mem_filter.mp ho).2)
      rw [compareBy_eq_of_common (htied a ha) (htied b hb)]
      rfl
    have hkept : (records.filter tied).Sublist (sortRecords keys records) :=
      List.sublist_mergeSort (compareBy_trans keys) (compareBy_total keys) hpairwise
        List.filter_sublist
    have hsublist : (records.filter tied).Sublist ((sortRecords keys records).filter tied) := by
      simpa only [List.filter_filter, Bool.and_self] using hkept.filter tied
    have hlength :=
      ((List.mergeSort_perm records fun a b => compareBy keys a b != .gt).filter tied).length_eq
    exact (hsublist.eq_of_length hlength.symm).symm

namespace Double

variable {a b : Double}

theorem totalKey_lt_of_key_lt (h : a.key < b.key) : a.totalKey < b.totalKey := by
  unfold key at h
  unfold totalKey
  grind

theorem totalKey_eq_iff_of_key_eq (h : a.key = b.key) :
    a.totalKey = b.totalKey ↔ ¬ (a.isZero = true ∧ b.isZero = true ∧ a.negative ≠ b.negative) := by
  unfold key at h
  unfold totalKey isZero
  grind

end Double

namespace Value

variable {v w : Value} {order : Ordering}

def TextBesideDate (v w : Value) : Prop :=
  (∃ text, v = .str text) ∧ w.isDate = true ∨ v.isDate = true ∧ ∃ text, w = .str text

def ZerosApart (v w : Value) : Prop :=
  ∃ m n : Number, v = .num m ∧ w = .num n ∧ m.toDouble.isZero = true ∧ n.toDouble.isZero = true ∧
    m.toDouble.negative ≠ n.toDouble.negative

structure SortsAsCompared (v w : Value) : Prop where
  less : compareField? (some v) w = some .lt → sortCompare (some v) (some w) = .lt
  greater : compareField? (some v) w = some .gt → sortCompare (some v) (some w) = .gt
  equal :
    compareField? (some v) w = some .eq → (sortCompare (some v) (some w) = .eq ↔ ¬ v.ZerosApart w)

theorem SortsAsCompared.of_eq (h : compareField? (some v) w = some (sortCompare (some v) (some w)))
    (hzeros : ¬ v.ZerosApart w) : v.SortsAsCompared w where
  less hlt := Option.some.inj (h.symm.trans hlt)
  greater hgt := Option.some.inj (h.symm.trans hgt)
  equal heq := iff_of_true (Option.some.inj (h.symm.trans heq)) hzeros

theorem not_zerosApart_left (h : ∀ m, v ≠ .num m) : ¬ v.ZerosApart w := by
  rintro ⟨m, -, rfl, -⟩
  exact h m rfl

theorem sortsAsCompared_num (m n : Number) : (num m).SortsAsCompared (num n) := by
  have hcompare :
      compareField? (some (num m)) (num n) = some (compare m.toDouble.key n.toDouble.key) := rfl
  have hsort : sortCompare (some (num m)) (some (num n)) =
      compare m.toDouble.totalKey n.toDouble.totalKey := rfl
  have hzeros : (num m).ZerosApart (num n) ↔
      m.toDouble.isZero = true ∧ n.toDouble.isZero = true ∧
        m.toDouble.negative ≠ n.toDouble.negative := by
    constructor
    · rintro ⟨_, _, ⟨⟩, ⟨⟩, hsigns⟩
      exact hsigns
    · exact fun hsigns => ⟨m, n, rfl, rfl, hsigns⟩
  constructor
  case less =>
    rw [hcompare, hsort, Option.some.injEq, Int.compare_eq_lt, Int.compare_eq_lt]
    exact Double.totalKey_lt_of_key_lt
  case greater =>
    rw [hcompare, hsort, Option.some.injEq, Int.compare_eq_gt, Int.compare_eq_gt]
    exact Double.totalKey_lt_of_key_lt
  case equal =>
    rw [hcompare, hsort, hzeros, Option.some.injEq, Int.compare_eq_eq, Int.compare_eq_eq]
    exact Double.totalKey_eq_iff_of_key_eq

/-- Sorting refines the ordering operators, but for a text beside a tagged date, which it orders by
kind. -/
theorem sortsAsCompared (h : ¬ v.TextBesideDate w) : v.SortsAsCompared w := by
  cases hc : compareField? (some v) w with
  | none =>
    constructor <;> rw [hc] <;> exact nofun
  | some order =>
    cases compareField?_eq_some_iff.mp hc with
    | bool a b => exact .of_eq rfl (not_zerosApart_left (by simp))
    | num m n => exact sortsAsCompared_num m n
    | str a b => exact .of_eq rfl (not_zerosApart_left (by simp))
    | instants left right tagged =>
      obtain ⟨a, rfl, -⟩ | ⟨fields, rfl, hdate⟩ := instant?_cases left
      · exact absurd (.inl ⟨⟨a, rfl⟩,
          by simpa [isDate, typeTag?, textField?, field?] using tagged⟩) h
      · obtain ⟨b, rfl, -⟩ | ⟨fields', rfl, hdate'⟩ := instant?_cases right
        · exact absurd (.inr ⟨isDate_of_dateInstant? hdate, b, rfl⟩) h
        · refine .of_eq ?_ (not_zerosApart_left (by simp))
          rw [hc]
          simp only [sortCompare, Option.map_some, Option.getD_some, Comparable.ofValue,
            hdate, hdate']
          rfl

end Value

/--
Sorting orders all fields. The matches of a query are put into that order by its sort keys: they are
the same records, of any two the first key that tells them apart decides, in its direction, and
records that no key tells apart stand in the order of creation. Where two values have an order for
the ordering operators, and are not a text and a tagged date, it is the order of sorting; what ties
for the operators ties for sorting too, other than zeros of different sign.
-/
theorem sorting_refines_ordering :
    Std.TransCmp sortCompare ∧
    (∀ (c : Contents) (target : String) (params : ReadParams) (found : List Record),
      matching c target (params.filter.getD .matchAll) = .ok found →
        found.Sublist (c.records target) ∧
        ∃ sorted, c.sortedMatches target params = .ok sorted ∧ Sorts params.sort found sorted) ∧
    ∀ v w : Value, ¬ v.TextBesideDate w → v.SortsAsCompared w := by
  refine ⟨inferInstance, fun c target params found hfound => ?_, fun v w h =>
    Value.sortsAsCompared h⟩
  refine ⟨sublist_of_matching hfound, sortRecords params.sort found, ?_,
    sorts_sortRecords params.sort found⟩
  rw [Contents.sortedMatches, hfound]
  rfl

def ranking : Contents :=
  let item (name : String) (rank : Nat) : Record :=
    [("name", .str name), ("rank", .num (.ofNat rank))]
  ((({} : Contents).insert "Item" "1" (item "a" 1)).insert "Item" "2" (item "b" 2)).insert "Item"
    "3" (item "c" 1)

theorem sorting_refines_ordering_ranking :
    (∃ found, matching ranking "Item" .matchAll = .ok found ∧ found.length = 3 ∧
      ∃ sorted, ranking.sortedMatches "Item" { sort := [⟨"rank", true⟩] } = .ok sorted ∧
        Sorts [⟨"rank", true⟩] found sorted) ∧
    ¬ (Value.num (.double ⟨true, 0, by decide⟩)).TextBesideDate (.num .zero) ∧
    (Value.num (.double ⟨true, 0, by decide⟩)).SortsAsCompared (.num .zero) := by
  obtain ⟨-, hsorts, hrefines⟩ := sorting_refines_ordering
  have hfound : ∃ found, matching ranking "Item" .matchAll = .ok found ∧ found.length = 3 :=
    ⟨_, rfl, rfl⟩
  obtain ⟨found, hfound, hlength⟩ := hfound
  have hkinds : ¬ (Value.num (.double ⟨true, 0, by decide⟩)).TextBesideDate (.num .zero) := by
    rintro (⟨⟨text, htext⟩, -⟩ | ⟨-, text, htext⟩) <;> cases htext
  obtain ⟨-, sorted, hsorted⟩ := hsorts ranking "Item" { sort := [⟨"rank", true⟩] } found hfound
  exact ⟨⟨found, hfound, hlength, sorted, hsorted⟩, hkinds, hrefines _ _ hkinds⟩

end DocumentStore
