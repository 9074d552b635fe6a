import DocumentStore.Shape

/-!
The two orders of values: the partial one of the ordering operators, and the total one of sorting.
-/

namespace DocumentStore

inductive Comparable where
  | null
  | bool (flag : Bool)
  | number (value : Double)
  | instant (value : Instant)
  | text (value : String)
  | composite

namespace Comparable

def ofValue : Value → Comparable
  | .null => .null
  | .bool b => .bool b
  | .num n => .number n.toDouble
  | .str s => .text s
  | .arr _ => .composite
  | .obj fields =>
    match (Value.obj fields).dateInstant? with
    | some t => .instant t
    | none => .composite

def rank : Comparable → Nat
  | .null => 0
  | .bool _ => 1
  | .number _ => 2
  | .instant _ => 3
  | .text _ => 4
  | .composite => 5

/-- Values of one kind are ordered, and texts are instants beside an instant; `none` where there is
no order. -/
def compare? : Comparable → Comparable → Option Ordering
  | .bool a, .bool b => some (compare a b)
  | .number a, .number b => some (compare a.key b.key)
  | .instant a, .instant b => some (a.compare b)
  | .text a, .text b => some (compare a b)
  | .text a, .instant b => (Instant.parse? a).map (·.compare b)
  | .instant a, .text b => (Instant.parse? b).map a.compare
  | _, _ => none

def withinKind : Comparable → Comparable → Ordering
  | .bool a, .bool b => compare a b
  | .number a, .number b => compare a.totalKey b.totalKey
  | .instant a, .instant b => a.compare b
  | .text a, .text b => compare a b
  | _, _ => .eq

end Comparable

def compareField? (field : Option Value) (param : Value) : Option Ordering :=
  field.bind fun f => (Comparable.ofValue f).compare? (Comparable.ofValue param)

/-- The order of sorting: by kind, absent and `null` first, then within the kind. -/
def sortCompare (left right : Option Value) : Ordering :=
  let a := (left.map Comparable.ofValue).getD .null
  let b := (right.map Comparable.ofValue).getD .null
  (compare a.rank b.rank).then (a.withinKind b)

end DocumentStore
