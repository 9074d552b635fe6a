/-!
Hexadecimal digits.
-/

namespace DocumentStore.Text

def hexChars (n : Nat) : List Char := Nat.toDigits 16 n

def hexPadded : Nat → Nat → List Char
  | 0, _ => []
  | width + 1, n => hexPadded width (n / 16) ++ [Nat.digitChar (n % 16)]

def hexReversed : Nat → Nat → Nat
  | 0, _ => 0
  | width + 1, n => n % 16 * 16 ^ width + hexReversed width (n / 16)

def hexDigit? (c : Char) : Option Nat :=
  if c.isDigit then some (c.toNat - 48)
  else if 'a' ≤ c ∧ c ≤ 'f' then some (c.toNat - 87)
  else if 'A' ≤ c ∧ c ≤ 'F' then some (c.toNat - 55)
  else none

end DocumentStore.Text
