/-!
Blank characters of Unicode, trimming, and splitting a text at a mark.
-/

namespace DocumentStore.Text

def isBlank (c : Char) : Bool :=
  let n := c.toNat
  (9 ≤ n && n ≤ 13) || n == 0x20 || n == 0x85 || n == 0xA0 || n == 0x1680 ||
    (0x2000 ≤ n && n ≤ 0x200A) ||
    n == 0x2028 || n == 0x2029 || n == 0x202F || n == 0x205F || n == 0x3000

def trimChars (cs : List Char) : List Char :=
  ((cs.dropWhile isBlank).reverse.dropWhile isBlank).reverse

def splitChars (mark : Char) : List Char → List (List Char)
  | [] => [[]]
  | c :: cs =>
    if c = mark then [] :: splitChars mark cs
    else match splitChars mark cs with
      | [] => [[c]]
      | piece :: pieces => (c :: piece) :: pieces

def trim (s : String) : String := .ofList (trimChars s.toList)

def split (mark : Char) (s : String) : List String := (splitChars mark s.toList).map .ofList

def listed (s : String) : List String := ((split ',' s).map trim).filter (!·.isEmpty)

theorem splitChars_ne_nil (mark : Char) (cs : List Char) : splitChars mark cs ≠ [] := by
  cases cs with
  | nil => simp [splitChars]
  | cons c cs =>
    simp only [splitChars]
    split
    · simp
    · split <;> simp

theorem splitChars_of_notMem {mark : Char} {cs : List Char} (h : mark ∉ cs) :
    splitChars mark cs = [cs] := by
  induction cs with
  | nil => rfl
  | cons c cs ih =>
    rw [List.mem_cons, not_or] at h
    rw [splitChars, if_neg (Ne.symm h.1), ih h.2]

end DocumentStore.Text
