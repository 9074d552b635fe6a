import DocumentStore.Engine.Reading

/-!
The order of sorting. Any values can be compared, and comparing them goes by four keys in turn, so
the sort keys of a query order all records: of two records one comes first or they tie, and what
comes between two records is between them by every key.
-/

namespace DocumentStore

namespace Comparable

def scale : Comparable → Int
  | .bool flag => if flag then 1 else 0
  | .number d => d.totalKey
  | .instant t => t.seconds
  | _ => 0

def fraction : Comparable → Nat
  | .instant t => t.nanos
  | _ => 0

def letters : Comparable → String
  | .text s => s
  | _ => ""

/-- By kind, then within the kind by the one key that tells its values apart. -/
def byKeys : Comparable → Comparable → Ordering :=
  compareLex (compareOn rank)
    (compareLex (compareOn scale) (compareLex (compareOn fraction) (compareOn letters)))

theorem order_eq_byKeys (a b : Comparable) :
    (compare a.rank b.rank).then (a.withinKind b) = byKeys a b := by
  unfold byKeys compareLex compareOn
  cases a with
  | bool x =>
    cases b with
    | bool y => cases x <;> cases y <;> rfl
    | _ => rfl
  | number x =>
    cases b with
    | number y => simp [withinKind, rank, scale, fraction, letters]
    | _ => rfl
  | instant t =>
    cases b with
    | instant u => simp [withinKind, rank, scale, fraction, letters, Instant.compare]
    | _ => rfl
  | text x =>
    cases b with
    | text y => simp [withinKind, rank, scale, fraction, letters]
    | _ => rfl
  | null | composite => cases b <;> rfl

instance : Ord Comparable := ⟨byKeys⟩

instance : Std.TransOrd Comparable := inferInstanceAs (Std.TransCmp (compareLex _ _))

end Comparable

namespace SortKey

def place (key : SortKey) (record : Record) : Comparable :=
  ((KeyMap.get? record key.field).map Comparable.ofValue).getD .null

def order (key : SortKey) : Record → Record → Ordering :=
  if key.descending then fun a b => compareOn key.place b a else compareOn key.place

theorem order_eq (key : SortKey) (a b : Record) :
    (let order := sortCompare (KeyMap.get? a key.field) (KeyMap.get? b key.field)
     if key.descending then order.swap else order) = key.order a b := by
  have hplaces : sortCompare (KeyMap.get? a key.field) (KeyMap.get? b key.field) =
      compare (key.place a) (key.place b) :=
    Comparable.order_eq_byKeys _ _
  simp only [hplaces, order]
  split
  · exact Std.OrientedOrd.eq_swap.symm
  · rfl

instance (key : SortKey) : Std.TransCmp key.order := by
  unfold order
  split
  · exact Std.TransCmp.opposite
  · infer_instance

end SortKey

theorem compareBy_cons (key : SortKey) (keys : List SortKey) :
    compareBy (key :: keys) = compareLex key.order (compareBy keys) := by
  funext a b
  rw [compareBy, compareLex, ← key.order_eq]

/-- The sort keys order all records, whatever their fields hold. The induction is on the keys. -/
instance transCmp_compareBy (keys : List SortKey) : Std.TransCmp (compareBy keys) := by
  induction keys with
  | nil => exact { eq_swap := rfl, isLE_trans := fun h _ => h }
  | cons key keys ih =>
    rw [compareBy_cons]
    infer_instance

section Sorting

variable (keys : List SortKey)

theorem isLE_compareBy (a b : Record) :
    (compareBy keys a b).isLE = (compareBy keys a b != .gt) := by
  cases compareBy keys a b <;> rfl

theorem compareBy_trans (a b c : Record) (hab : (compareBy keys a b != .gt) = true)
    (hbc : (compareBy keys b c != .gt) = true) :
    (compareBy keys a c != .gt) = true := by
  rw [← isLE_compareBy] at hab hbc ⊢
  exact Std.TransCmp.isLE_trans hab hbc

theorem compareBy_total (a b : Record) :
    (compareBy keys a b != .gt || compareBy keys b a != .gt) = true := by
  have hswap : compareBy keys b a = (compareBy keys a b).swap := Std.OrientedCmp.eq_swap
  rw [hswap]
  cases compareBy keys a b <;> rfl

end Sorting

end DocumentStore
