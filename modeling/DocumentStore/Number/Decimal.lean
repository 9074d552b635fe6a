import DocumentStore.Number.Double

/-!
Decimal texts of doubles: the fewest digits that read back, laid out plainly or with an exponent.
-/

namespace DocumentStore

/-- The number `digits * 10 ^ exponent`. -/
structure Decimal where
  digits : Nat
  exponent : Int
deriving DecidableEq, Repr

namespace Decimal

def digitChars (n : Nat) : List Char := Nat.toDigits 10 n

def ofIntText : Int → String
  | .ofNat n => .ofList (digitChars n)
  | .negSucc n => .ofList ('-' :: digitChars (n + 1))

def stripZeros : Nat → Decimal → Decimal
  | 0, d => d
  | fuel + 1, d =>
    if d.digits ≠ 0 ∧ d.digits % 10 = 0 then stripZeros fuel ⟨d.digits / 10, d.exponent + 1⟩ else d

def leadingExponent (units : Nat) : Int :=
  ((digitChars (units * 10 ^ 400 / Double.unit)).length : Int) - 401

/--
The best multiple of `10 ^ exponent` that reads back as the double of this rank, if there is one: of
the two neighbours of the value on that grid the nearer, and at equal distance the even one. The
numbers that read back lie between the midpoints to the neighbouring doubles, which count for an
even rank.
-/
def onGrid? (rank : Nat) (exponent : Int) : Option Decimal :=
  let scale := Nat.pow 10 (-exponent).toNat
  let step := Nat.pow 10 exponent.toNat * (2 * Double.unit)
  let value := 2 * Double.unitsAt rank * scale
  let low := (Double.unitsAt (rank - 1) + Double.unitsAt rank) * scale
  let high := (Double.unitsAt rank + Double.unitsAt (rank + 1)) * scale
  let readsBack (n : Nat) : Bool :=
    if rank % 2 = 0 then low ≤ n * step && n * step ≤ high else low < n * step && n * step < high
  let below := value / step
  let above := below + 1
  match readsBack below, readsBack above with
  | false, false => none
  | true, false => some ⟨below, exponent⟩
  | false, true => some ⟨above, exponent⟩
  | true, true => some ⟨divHalfEven value step, exponent⟩

/-- The shortest decimal that reads back as the double of a positive rank. Seventeen digits always
do. -/
def shortest (rank : Nat) : Decimal :=
  let first := leadingExponent (Double.unitsAt rank)
  let found := (List.range 17).findSome? fun (n : Nat) => onGrid? rank (first - (n : Int))
  stripZeros 20 (found.getD ⟨0, 0⟩)

structure Layout where
  plainFrom : Int
  plainBelow : Int

def layOut (layout : Layout) (d : Decimal) : String :=
  let digits := digitChars d.digits
  let lead := (digits.length : Int) + d.exponent - 1
  if layout.plainFrom ≤ lead ∧ lead < layout.plainBelow then
    if 0 ≤ d.exponent then
      .ofList (digits ++ List.replicate d.exponent.toNat '0' ++ ['.', '0'])
    else if 0 ≤ lead then
      .ofList (digits.take (lead.toNat + 1) ++ '.' :: digits.drop (lead.toNat + 1))
    else
      .ofList ('0' :: '.' :: List.replicate (-lead - 1).toNat '0' ++ digits)
  else
    let mantissa := match digits with
      | [] => []
      | [c] => [c]
      | c :: rest => c :: '.' :: rest
    .ofList (mantissa ++ 'e' :: (if lead < 0 then '-' else '+') :: digitChars lead.natAbs)

def documentLayout : Layout := ⟨-5, 16⟩

def ofDoubleText (d : Double) : String :=
  let magnitude := if d.rank = 0 then "0.0" else layOut documentLayout (shortest d.rank)
  if d.negative then "-" ++ magnitude else magnitude

end Decimal

end DocumentStore
