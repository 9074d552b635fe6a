import DocumentStore.Text.Hex

/-!
New ids: the first digits of random identifiers of 128 bits, drawn until one is free.
-/

namespace DocumentStore

/-- A source of random numbers of 128 bits: scheduled draws first, then the count of draws with its
digits reversed. -/
structure IdSupply where
  scheduled : List Nat := []
  drawn : Nat := 0

namespace IdSupply

def draw (s : IdSupply) : Nat × IdSupply :=
  match s.scheduled with
  | n :: rest => (n, ⟨rest, s.drawn + 1⟩)
  | [] => (Text.hexReversed 32 (s.drawn + 1), ⟨[], s.drawn + 1⟩)

def identifier (bits : Nat) : Nat :=
  bits &&& 0xFFFFFFFFFFFF4FFFBFFFFFFFFFFFFFFF ||| 0x40008000000000000000

def idOf (length bits : Nat) : String := .ofList ((Text.hexPadded 32 (identifier bits)).take length)

def fresh? (taken : String → Bool) (length : Nat) : Nat → IdSupply → Option (String × IdSupply)
  | 0, _ => none
  | tries + 1, s =>
    let (bits, rest) := s.draw
    if taken (idOf length bits) then fresh? taken length tries rest
    else some (idOf length bits, rest)

/--
Draws an id that is not among those of a class. The scheduled draws and one more than there are ids
are enough: draws by count differ in their first digits, unless the ids of that length are used up.
-/
def next? (length : Nat) (ids : List String) (s : IdSupply) : Option (String × IdSupply) :=
  fresh? ids.contains length (s.scheduled.length + ids.length + 1) s

end IdSupply

end DocumentStore
