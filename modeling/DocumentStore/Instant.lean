import DocumentStore.Instant.Date

/-!
Instants: whole seconds and nanoseconds. A leap second is the second before it, with ten to the nine
nanoseconds or more.
-/

namespace DocumentStore

/-- An instant, in seconds since the first of January 1970 and nanoseconds after that second. -/
structure Instant where
  seconds : Int
  nanos : Nat
deriving DecidableEq, Repr

namespace Instant

/-- Earlier seconds come first, then fewer nanoseconds; so a leap second comes before the next
second. -/
def compare (a b : Instant) : Ordering :=
  (Ord.compare a.seconds b.seconds).then (Ord.compare a.nanos b.nanos)

def ofMillis (millis : Int) : Instant := ⟨millis / 1000, (millis % 1000).toNat * 1000000⟩

def toMillis (t : Instant) : Int := t.seconds * 1000 + t.nanos / 1000000

def firstYear : Int := -262143
def lastYear : Int := 262142

def ofMillis? (millis : Int) : Option Instant :=
  let t := ofMillis millis
  let year := (Date.ofDays (t.seconds / 86400)).year
  if firstYear ≤ year ∧ year ≤ lastYear then some t else none

end Instant

end DocumentStore
