/-!
Finite doubles, held by their place in the list of all finite doubles of one sign. Order, equality
and rounding are arithmetic on that place, so they can be reasoned about without a floating-point
unit.
-/

namespace DocumentStore

-- Powers here are those of the core library, also where a library is loaded that takes them from
-- monoids.
attribute [default_instance 20000] instPowNat

/-- A finite double: its sign, and its rank among the non-negative finite doubles, zero being rank
0. -/
structure Double where
  negative : Bool
  rank : Nat
  finite : rank < 2047 * 2 ^ 52
deriving DecidableEq

def divHalfEven (num den : Nat) : Nat :=
  if 2 * (num % den) < den ∨ 2 * (num % den) = den ∧ num / den % 2 = 0 then num / den
  else num / den + 1

namespace Double

def unit : Nat := 2 ^ 1074

def unitsAt (rank : Nat) : Nat :=
  if rank < 2 ^ 52 then rank else (2 ^ 52 + rank % 2 ^ 52) <<< (rank / 2 ^ 52 - 1)

/-- The rank whose magnitude is nearest to `num / den` units, a half going to the even rank. -/
def nearestRank (num den : Nat) : Nat :=
  let shift := Nat.log2 (num / den) - 52
  shift * 2 ^ 52 + divHalfEven num (den <<< shift)

def ofRank? (negative : Bool) (rank : Nat) : Option Double :=
  if h : rank < 2047 * 2 ^ 52 then some ⟨negative, rank, h⟩ else none

def zero : Double := ⟨false, 0, by decide⟩

def ofInt (n : Int) : Double :=
  ⟨n < 0, min (nearestRank (n.natAbs * unit) 1) (2047 * 2 ^ 52 - 1), by omega⟩

def isZero (d : Double) : Bool := d.rank == 0

def units (d : Double) : Int :=
  if d.negative then -(unitsAt d.rank : Int) else unitsAt d.rank

def key (d : Double) : Int := if d.negative then -(d.rank : Int) else d.rank

/-- Orders doubles by value, the negative zero before the positive one. -/
def totalKey (d : Double) : Int := if d.negative then -(d.rank : Int) - 1 else d.rank

def round (value : Int) (negativeZero : Bool) : Except Bool Double :=
  (ofRank? (value < 0 || (value == 0 && negativeZero)) (nearestRank value.natAbs 1)).elim
    (.error (value < 0)) .ok

def add (a b : Double) : Except Bool Double := round (a.units + b.units) (a.negative && b.negative)

def powerOfTen (e : Nat) : Nat := nearestRank (Nat.pow 10 e * unit) 1

def timesPower (rank e : Nat) : Nat := nearestRank (unitsAt rank * unitsAt (powerOfTen e)) unit

def overPower (rank e : Nat) : Nat := nearestRank (unitsAt rank * unit) (unitsAt (powerOfTen e))

/--
Reads `significand * 10 ^ exponent`, for a significand below `2 ^ 64`: the significand is made a
double, then multiplied or divided by the double of the power of ten. Each step rounds. Powers
beyond `10 ^ 308` are no doubles: a positive one overflows and a negative one is divided out in two
steps.
-/
def ofScientific? (negative : Bool) (significand : Nat) (exponent : Int) : Option Double :=
  let base := nearestRank (significand * unit) 1
  match exponent with
  | .ofNat e =>
    if base = 0 then ofRank? negative 0
    else if e ≤ 308 then ofRank? negative (timesPower base e)
    else none
  | .negSucc n =>
    let e := n + 1
    ofRank? negative <|
      if e ≤ 308 then overPower base e
      else if e ≤ 616 then overPower (overPower base 308) (e - 308)
      else 0

end Double

end DocumentStore
