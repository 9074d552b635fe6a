import DocumentStore.Number.Double
import DocumentStore.Number.Decimal

/-!
The numbers of a document: exact integers of 64 bits, and finite doubles. Comparison goes by the
nearest double.
-/

namespace DocumentStore

/-- The integers a document holds exactly: all that fit 64 bits, signed or unsigned. -/
def IntegerFits (n : Int) : Prop := -2 ^ 63 ≤ n ∧ n < 2 ^ 64

instance (n : Int) : Decidable (IntegerFits n) := inferInstanceAs (Decidable (_ ∧ _))

/-- A number as it stands in a document: written as an integer that fits, or a double. -/
inductive Number where
  | int (value : Int) (fits : IntegerFits value)
  | double (value : Double)
deriving DecidableEq

namespace Number

def zero : Number := .int 0 (by decide)

def ofInt? (n : Int) : Option Number :=
  if h : IntegerFits n then some (.int n h) else none

def ofNat (n : Nat) : Number := (ofInt? n).getD (.double (Double.ofInt n))

def toDouble : Number → Double
  | .int n _ => Double.ofInt n
  | .double d => d

def toNat? : Number → Option Nat
  | .int (.ofNat n) _ => some n
  | _ => none

def sameValue (a b : Number) : Bool := a.toDouble.key == b.toDouble.key

def sameKind : Number → Number → Bool
  | .int a _, .int b _ => a == b
  | .double a, .double b => a.key == b.key
  | _, _ => false

inductive Overflow where
  | positive
  | negative
deriving DecidableEq

/--
Adds exactly when both are integers of 63 bits and a sign and so is their sum; any other sum is one
of doubles.
-/
def add (a b : Number) : Except Overflow Number :=
  match a, b with
  | .int m _, .int n _ =>
    if h : m < 2 ^ 63 ∧ n < 2 ^ 63 ∧ -2 ^ 63 ≤ m + n ∧ m + n < 2 ^ 63 then
      .ok (.int (m + n) ⟨h.2.2.1, by omega⟩)
    else ofSum (a.toDouble.add b.toDouble)
  | _, _ => ofSum (a.toDouble.add b.toDouble)
where
  ofSum : Except Bool Double → Except Overflow Number
    | .ok d => .ok (.double d)
    | .error true => .error .negative
    | .error false => .error .positive

def text : Number → String
  | .int n _ => Decimal.ofIntText n
  | .double d => Decimal.ofDoubleText d

def takeDigits : Nat → List Char → Nat × List Char
  | w, [] => (w, [])
  | w, c :: cs =>
    let next := w * 10 + (c.toNat - 48)
    if next < 2 ^ 64 then takeDigits next cs else (w, c :: cs)

def digitsValue (cs : List Char) : Nat := cs.foldl (fun n c => n * 10 + (c.toNat - 48)) 0

def splitSign : List Char → Bool × List Char
  | '-' :: cs => (true, cs)
  | cs => (false, cs)

def exponent? (cs : List Char) : Option Int :=
  let (negative, digits) := match cs with
    | '+' :: ds => (false, ds)
    | '-' :: ds => (true, ds)
    | ds => (false, ds)
  if digits ≠ [] ∧ digits.all Char.isDigit then
    some (if negative then -(digitsValue digits : Int) else digitsValue digits)
  else none

def tail? (cs : List Char) : Option (List Char × Int) :=
  let (fraction, rest, pointed) := match cs with
    | '.' :: ds => (ds.takeWhile Char.isDigit, ds.dropWhile Char.isDigit, true)
    | ds => ([], ds, false)
  if pointed ∧ fraction = [] then none
  else match rest with
    | [] => some (fraction, 0)
    | c :: ds => if c = 'e' ∨ c = 'E' then (exponent? ds).map (fraction, ·) else none

/--
Reads a number literal. Plain digits are an integer when they fit, except for `-0`; all else is a
double. A literal beyond the doubles is refused.
-/
def ofLiteral? (literal : List Char) : Option Number :=
  let (negative, unsigned) := splitSign literal
  let whole := unsigned.takeWhile Char.isDigit
  let rest := unsigned.dropWhile Char.isDigit
  if whole = [] ∨ (whole.head? = some '0' ∧ whole.length ≠ 1) then none
  else
    let n := digitsValue whole
    let exact := if negative then (if n = 0 then none else ofInt? (-(n : Int))) else ofInt? n
    match rest, exact with
    | [], some number => some number
    | _, _ => do
      let (fraction, exponent) ← tail? rest
      let (upper, dropped) := takeDigits 0 whole
      let (significand, unread) := takeDigits upper fraction
      let shift : Int := dropped.length - (fraction.length - unread.length : Nat)
      let d ← Double.ofScientific? negative significand (exponent + shift)
      return .double d

end Number

end DocumentStore
