import DocumentStore.Text.Hex
import DocumentStore.Value

/-!
The tokens of a JSON text: six marks and the scalars. One pass over the characters, with the
unfinished scalar as state.
-/

namespace DocumentStore.Json

inductive Token where
  | openBrace
  | closeBrace
  | openBracket
  | closeBracket
  | comma
  | colon
  | scalar (value : Value)

/-- Where a pass over a text stands: between tokens, inside a word, or inside a string (its
characters reversed). -/
inductive Inside where
  | nothing
  | word (seen : List Char)
  | string (seen : List Char)
  | escape (seen : List Char)
  /-- Inside `\u`: hexadecimal digits still to come, the value of those read, and a leading
  surrogate before it. -/
  | unicode (seen : List Char) (missing : Nat) (value : Nat) (lead : Option Nat)
  | afterLead (seen : List Char) (lead : Nat)
  | leadEscape (seen : List Char) (lead : Nat)

def mark? (c : Char) : Option Token :=
  match c with
  | '\x7b' => some .openBrace
  | '\x7d' => some .closeBrace
  | '[' => some .openBracket
  | ']' => some .closeBracket
  | ',' => some .comma
  | ':' => some .colon
  | _ => none

def isSpace (c : Char) : Bool := c == ' ' || c == '\t' || c == '\n' || c == '\r'

def isWordChar (c : Char) : Bool := c.isAlphanum || c == '-' || c == '+' || c == '.'

def ofWord? (word : List Char) : Option Value :=
  if word = ['n', 'u', 'l', 'l'] then some .null
  else if word = ['t', 'r', 'u', 'e'] then some (.bool true)
  else if word = ['f', 'a', 'l', 's', 'e'] then some (.bool false)
  else (Number.ofLiteral? word).map .num

def escaped? (c : Char) : Option Char :=
  match c with
  | '"' => some '"'
  | '\\' => some '\\'
  | '/' => some '/'
  | 'b' => some '\x08'
  | 'f' => some '\x0c'
  | 'n' => some '\n'
  | 'r' => some '\r'
  | 't' => some '\t'
  | _ => none

/-- What follows the fourth digit of a `\u` escape. Surrogates count in pairs only. -/
def afterUnicode (seen : List Char) (value : Nat) : Option Nat → Option Inside
  | none =>
    if 0xD800 ≤ value ∧ value ≤ 0xDBFF then some (.afterLead seen value)
    else if 0xDC00 ≤ value ∧ value ≤ 0xDFFF then none
    else some (.string (Char.ofNat value :: seen))
  | some lead =>
    if 0xDC00 ≤ value ∧ value ≤ 0xDFFF then
      some (.string (Char.ofNat (0x10000 + (lead - 0xD800) * 0x400 + (value - 0xDC00)) :: seen))
    else none

def between? (c : Char) : Option (Option Token × Inside) :=
  if isSpace c then some (none, .nothing)
  else match mark? c with
    | some t => some (some t, .nothing)
    | none =>
      if c = '"' then some (none, .string [])
      else if isWordChar c then some (none, .word [c])
      else none

def step? (c : Char) : Inside → Option (List Token × Inside)
  | .nothing => (between? c).map fun (t, s) => (t.toList, s)
  | .word seen =>
    if isWordChar c then some ([], .word (c :: seen))
    else if c = '"' then none
    else do
      let v ← ofWord? seen.reverse
      let (t, s) ← between? c
      return (.scalar v :: t.toList, s)
  | .string seen =>
    if c = '"' then some ([.scalar (.str (.ofList seen.reverse))], .nothing)
    else if c = '\\' then some ([], .escape seen)
    else if c.toNat < 0x20 then none
    else some ([], .string (c :: seen))
  | .escape seen =>
    if c = 'u' then some ([], .unicode seen 3 0 none)
    else (escaped? c).map fun e => ([], .string (e :: seen))
  | .unicode seen missing value lead => do
    let d ← Text.hexDigit? c
    match missing with
    | 0 => return ([], ← afterUnicode seen (value * 16 + d) lead)
    | n + 1 => return ([], .unicode seen n (value * 16 + d) lead)
  | .afterLead seen lead => if c = '\\' then some ([], .leadEscape seen lead) else none
  | .leadEscape seen lead => if c = 'u' then some ([], .unicode seen 3 0 (some lead)) else none

def finish? : Inside → Option (List Token)
  | .nothing => some []
  | .word seen => (ofWord? seen.reverse).map fun v => [.scalar v]
  | _ => none

def scan? : Inside → List Char → Option (List Token)
  | state, [] => finish? state
  | state, c :: cs => do
    let (tokens, next) ← step? c state
    let rest ← scan? next cs
    return tokens ++ rest

end DocumentStore.Json
