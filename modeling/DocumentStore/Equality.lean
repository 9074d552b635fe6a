import DocumentStore.Shape

/-!
The equality rule. A stored list also equals what one of its elements equals, so the rule is not
symmetric.
-/

namespace DocumentStore

namespace Value

mutual

/-- Equal in structure, with numbers equal in value: objects agree field by field in the order of
their names. -/
def equal : Value → Value → Bool
  | .null, .null => true
  | .bool a, .bool b => a == b
  | .num a, .num b => a.sameValue b
  | .str a, .str b => a == b
  | .arr a, .arr b => equalItems a b
  | .obj a, .obj b => equalFields a b
  | _, _ => false

def equalItems : List Value → List Value → Bool
  | [], [] => true
  | a :: as, b :: bs => equal a b && equalItems as bs
  | _, _ => false

def equalFields : List (String × Value) → List (String × Value) → Bool
  | [], [] => true
  | (k, a) :: as, (l, b) :: bs => k == l && equal a b && equalFields as bs
  | _, _ => false

end

def sameObjectId (a b : Value) : Bool := a.objectId?.any fun id => b.objectId? == some id

def instant? : Value → Option Instant
  | .str s => Instant.parse? s
  | v => v.dateInstant?

/-- Both denote one instant, and at least one is a tagged date. -/
def sameInstant (a b : Value) : Bool :=
  (a.isDate || b.isDate) && a.instant?.any fun t => b.instant? == some t

def agrees (a b : Value) : Bool := equal a b || sameObjectId a b || sameInstant a b

mutual

/-- A stored value equals the parameter itself, or is a list of which an element does. -/
def holds (param : Value) : Value → Bool
  | .arr items => agrees (.arr items) param || holdsAmong param items
  | v => agrees v param

def holdsAmong (param : Value) : List Value → Bool
  | [] => false
  | v :: vs => holds param v || holdsAmong param vs

end

def sameEntry (entry candidate : Value) : Bool :=
  equal entry candidate || sameObjectId entry candidate

end Value

/-- The equality rule between a stored field and a parameter. `null` and absence equal each other
only. -/
def fieldEquals (field param : Option Value) : Bool :=
  match present? field, present? param with
  | none, none => true
  | some f, some p => Value.holds p f
  | _, _ => false

end DocumentStore
