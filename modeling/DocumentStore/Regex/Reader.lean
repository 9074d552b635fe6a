import DocumentStore.Number
import DocumentStore.Regex.Basic
import DocumentStore.Text.Alphabetic
import DocumentStore.Text.Blank
import DocumentStore.Text.Hex
import DocumentStore.Text.Numeric

/-!
Reading regular expressions. Open groups stand on a stack, so that reading is one pass over the
pattern.
-/

namespace DocumentStore.Regex

structure Flags where
  ignoreCase : Bool := false
  multiLine : Bool := false
  dotMatchesNewline : Bool := false
  swapGreed : Bool := false
  crlf : Bool := false
  spaced : Bool := false

def skipSpace (inComment : Bool) : List Char → List Char
  | [] => []
  | c :: cs =>
    if inComment then skipSpace (c != '\n') cs
    else if Text.isBlank c then skipSpace false cs
    else if c = '#' then skipSpace true cs
    else c :: cs

def Flags.skip (f : Flags) (cs : List Char) : List Char :=
  if f.spaced then skipSpace false cs else cs

def Flags.peek (f : Flags) (cs : List Char) : Option Char :=
  if f.spaced then
    match cs.dropWhile Text.isBlank with
    | [] => cs.head?
    | '#' :: rest => (rest.dropWhile Text.isBlank).head?.or cs.head?
    | c :: _ => some c
  else cs.head?

def Flags.literal (f : Flags) (c : Char) : Regex :=
  match f.ignoreCase, CharSet.foldRange (c.toNat, c.toNat) with
  | true, some other => .chars (CharSet.canonical [(c.toNat, c.toNat), other])
  | _, _ => .char c

def Flags.dot (f : Flags) : Regex :=
  .chars (if f.dotMatchesNewline then CharSet.full
    else if f.crlf then CharSet.complement [(10, 10), (13, 13)]
    else CharSet.complement [(10, 10)])

def Flags.lineStart (f : Flags) : Regex :=
  .look (if f.multiLine then (if f.crlf then .crlfStart else .lineStart) else .textStart)

def Flags.lineEnd (f : Flags) : Regex :=
  .look (if f.multiLine then (if f.crlf then .crlfEnd else .lineEnd) else .textEnd)

def scalar? (n : Nat) : Option Char := if h : n.isValidChar then some (Char.ofNatAux n h) else none

def hexDigits (f : Flags) : Nat → Nat → List Char → Option (Nat × List Char)
  | 0, n, cs => some (n, cs)
  | count + 1, n, c :: cs => do
    let d ← Text.hexDigit? c
    hexDigits f count (n * 16 + d) (f.skip cs)
  | _ + 1, _, [] => none

def hexBraced (f : Flags) : Nat → Option Nat → List Char → Option (Nat × List Char)
  | 0, _, _ => none
  | fuel + 1, n, cs =>
    match f.skip cs with
    | [] => none
    | '\x7d' :: rest => n.map (·, f.skip rest)
    | c :: rest => do
      let d ← Text.hexDigit? c
      hexBraced f fuel (some (n.getD 0 * 16 + d)) rest

def hexEscape (f : Flags) (digits : Nat) (cs : List Char) : Option (Regex × List Char) := do
  let (n, rest) ← match f.skip cs with
    | '\x7b' :: rest => hexBraced f (rest.length + 1) none rest
    | rest => hexDigits f digits 0 rest
  let c ← scalar? n
  return (f.literal c, rest)

def takeSpaced (f : Flags) (inClass : Char → Bool) : Nat → List Char → List Char × List Char
  | 0, cs => ([], cs)
  | fuel + 1, c :: cs =>
    if inClass c then
      let (taken, rest) := takeSpaced f inClass fuel (f.skip cs)
      (c :: taken, rest)
    else ([], c :: cs)
  | _ + 1, [] => ([], [])

def isWordLetter (c : Char) : Bool := c.isAlpha || c == '-'

def boundaryNamed? (name : List Char) : Option Look :=
  match String.ofList name with
  | "start" => some .wordStart
  | "end" => some .wordEnd
  | "start-half" => some .wordStartHalf
  | "end-half" => some .wordEndHalf
  | _ => none

def boundary (f : Flags) : List Char → Option (Regex × List Char)
  | '\x7b' :: rest =>
    let inside := f.skip rest
    match inside with
    | [] => none
    | c :: _ =>
      if isWordLetter c then
        match takeSpaced f isWordLetter inside.length inside with
        | (name, '\x7d' :: rest) => (boundaryNamed? name).map (Regex.look ·, rest)
        | _ => none
      else some (.look .wordBoundary, '\x7b' :: rest)
  | cs => some (.look .wordBoundary, cs)

def isEscapable (c : Char) : Bool := c.toNat < 128 && !c.isAlphanum && c != '<' && c != '>'

def escape (f : Flags) : List Char → Option (Regex × List Char)
  | [] => none
  | c :: cs =>
    match c with
    | 'x' => hexEscape f 2 cs
    | 'u' => hexEscape f 4 cs
    | 'U' => hexEscape f 8 cs
    | 'd' => some (.chars CharSet.digit, cs)
    | 's' => some (.chars CharSet.space, cs)
    | 'w' => some (.chars CharSet.word, cs)
    | 'D' => some (.chars (CharSet.complement CharSet.digit), cs)
    | 'S' => some (.chars (CharSet.complement CharSet.space), cs)
    | 'W' => some (.chars (CharSet.complement CharSet.word), cs)
    | 'a' => some (f.literal '\x07', cs)
    | 'f' => some (f.literal '\x0c', cs)
    | 't' => some (f.literal '\t', cs)
    | 'n' => some (f.literal '\n', cs)
    | 'r' => some (f.literal '\r', cs)
    | 'v' => some (f.literal '\x0b', cs)
    | 'A' => some (.look .textStart, cs)
    | 'z' => some (.look .textEnd, cs)
    | 'b' => boundary f cs
    | 'B' => some (.look .notWordBoundary, cs)
    | '<' => some (.look .wordStart, cs)
    | '>' => some (.look .wordEnd, cs)
    | c => if isEscapable c then some (f.literal c, cs) else none

def setItem (f : Flags) : List Char → Option (Regex × List Char)
  | [] => none
  | '\\' :: cs => escape f cs
  | c :: cs => some (.char c, cs)

def toSet? : Regex → Option CharSet
  | .char c => some (CharSet.single c)
  | .chars set => some set
  | _ => none

def namedClass (cs : List Char) : Option (CharSet × List Char) :=
  match cs with
  | ':' :: rest =>
    let (negated, rest) := match rest with
      | '^' :: rest => (true, rest)
      | rest => (false, rest)
    match rest.dropWhile (· ≠ ':') with
    | ':' :: ']' :: after => do
      let set ← CharSet.named? (.ofList (rest.takeWhile (· ≠ ':')))
      return (if negated then CharSet.complement set else set, after)
    | _ => none
  | _ => none

def setRange (f : Flags) (cs : List Char) : Option (CharSet × List Char) := do
  let (first, rest) ← setItem f cs
  match f.skip rest with
  | [] => none
  | '-' :: after =>
    if f.peek after = some ']' ∨ f.peek after = some '-' then
      return (← toSet? first, '-' :: after)
    else
      let (last, rest) ← setItem f (f.skip after)
      match first, last with
      | .char low, .char high => if low ≤ high then some ([(low.toNat, high.toNat)], rest) else none
      | _, _ => none
  | rest => return (← toSet? first, rest)

def setItems (f : Flags) : Nat → CharSet → List Char → Option (CharSet × List Char)
  | 0, _, _ => none
  | fuel + 1, set, cs =>
    match f.skip cs with
    | [] => none
    | '[' :: rest => do
      let (named, rest) ← namedClass rest
      setItems f fuel (set ++ named) rest
    | ']' :: rest => some (set, rest)
    | '&' :: '&' :: _ => none
    | '-' :: '-' :: _ => none
    | '~' :: '~' :: _ => none
    | rest => do
      let (more, rest) ← setRange f rest
      setItems f fuel (set ++ more) rest

def dropDashes (f : Flags) : Nat → List Char → List Char
  | 0, cs => cs
  | fuel + 1, '-' :: cs => dropDashes f fuel (f.skip cs)
  | _ + 1, cs => cs

def bracketed (f : Flags) (cs : List Char) : Option (Regex × List Char) := do
  let cs := f.skip cs
  let (negated, cs) := match cs with
    | '^' :: rest => (true, f.skip rest)
    | rest => (false, rest)
  let (start, cs) : CharSet × List Char := match cs with
    | '-' :: _ => (CharSet.single '-', dropDashes f cs.length cs)
    | ']' :: rest => (CharSet.single ']', rest)
    | rest => ([], rest)
  let (set, rest) ← setItems f (cs.length + 1) start cs
  let set := CharSet.canonical set
  let set := if f.ignoreCase then CharSet.foldCase set else set
  return (.chars (if negated then CharSet.complement set else set), rest)

def primitive (f : Flags) (c : Char) (cs : List Char) : Option (Regex × List Char) :=
  match c with
  | '\\' => escape f cs
  | '.' => some (f.dot, cs)
  | '^' => some (f.lineStart, cs)
  | '$' => some (f.lineEnd, cs)
  | c => some (f.literal c, cs)

/-- Drops the mark that makes a repetition reluctant, which does not change what matches. -/
def dropReluctance : List Char → List Char
  | '?' :: rest => rest
  | rest => rest

def decimal (f : Flags) (cs : List Char) : Option (Nat × List Char) :=
  let cs := cs.dropWhile Text.isBlank
  let (digits, rest) := takeSpaced f Char.isDigit cs.length cs
  let n := Number.digitsValue digits
  if digits = [] ∨ 2 ^ 32 ≤ n then none else some (n, rest.dropWhile Text.isBlank)

def counts (f : Flags) (cs : List Char) : Option ((Nat × Option Nat) × List Char) := do
  let (min, cs) ← decimal f (f.skip cs)
  let (max, cs) ← match cs with
    | ',' :: rest =>
      match f.skip rest with
      | '\x7d' :: rest => some (none, '\x7d' :: rest)
      | rest => (decimal f rest).map fun (n, rest) => (some n, rest)
    | rest => some (some min, rest)
  match cs with
  | '\x7d' :: rest =>
    if max.all (min ≤ ·) then some ((min, max), dropReluctance (f.skip rest)) else none
  | _ => none

def Flags.set? (f : Flags) (on : Bool) (letter : Char) : Option Flags :=
  match letter with
  | 'i' => some { f with ignoreCase := on }
  | 'm' => some { f with multiLine := on }
  | 's' => some { f with dotMatchesNewline := on }
  | 'U' => some { f with swapGreed := on }
  | 'R' => some { f with crlf := on }
  | 'x' => some { f with spaced := on }
  | 'u' => some f
  | _ => none

/-- Reads flags up to a colon or closing bracket, which is left. Each letter and the dash stand
once, the dash not last. -/
def readFlags (f : Flags) (seen : List Char) (dashLast : Bool) :
    List Char → Option (Flags × List Char)
  | [] => none
  | c :: cs =>
    if c = ':' ∨ c = ')' then (if dashLast then none else some (f, c :: cs))
    else if seen.contains c then none
    else if c = '-' then readFlags f (c :: seen) true cs
    else do
      let f ← f.set? (!seen.contains '-') c
      readFlags f (c :: seen) false cs

def groupName (cs : List Char) : Option (String × List Char) :=
  let name := cs.takeWhile (· ≠ '>')
  let isFirst (c : Char) := c == '_' || CharSet.alphabetic.contains c
  let isLater (c : Char) := isFirst c || CharSet.numeric.contains c || ['.', '[', ']'].contains c
  match name, cs.dropWhile (· ≠ '>') with
  | first :: later, '>' :: rest =>
    if isFirst first && later.all isLater then some (.ofList name, rest) else none
  | _, _ => none

structure Level where
  flags : Flags
  capture : Option Capture
  branches : List Regex
  items : List Regex

/--
The state of reading: how many groups there were and their names, the open groups, innermost first,
and the finished branches and items, last first.
-/
structure Reading where
  flags : Flags := {}
  groups : Nat := 0
  names : List String := []
  outer : List Level := []
  branches : List Regex := []
  items : List Regex := []

namespace Reading

def push (s : Reading) (item : Regex) : Reading := { s with items := item :: s.items }

def enter (s : Reading) (capture : Option Capture) (flags : Flags) : Option Reading :=
  if s.outer.length < nestingLimit then
    some { s with
      flags := flags
      outer := ⟨s.flags, capture, s.branches, s.items⟩ :: s.outer
      branches := []
      items := [] }
  else none

def enterCapture (s : Reading) (name : Option String) : Option Reading :=
  { s with groups := s.groups + 1 }.enter (some ⟨s.groups + 1, name⟩) s.flags

def nextBranch (s : Reading) : Reading :=
  { s with branches := concatOf s.items.reverse :: s.branches, items := [] }

def body (s : Reading) : Regex := alternateOf (concatOf s.items.reverse :: s.branches).reverse

def leave (s : Reading) : Option Reading :=
  match s.outer with
  | [] => none
  | level :: outer =>
    let item := level.capture.elim s.body fun capture => .group capture s.body
    some { s with
      flags := level.flags
      outer := outer
      branches := level.branches
      items := item :: level.items }

def enterNamed (s : Reading) (cs : List Char) : Option (Reading × List Char) := do
  let (name, rest) ← groupName cs
  if s.names.contains name then none
  else return (← { s with names := name :: s.names }.enterCapture (some name), rest)

def enterFlagged (s : Reading) (cs : List Char) : Option (Reading × List Char) := do
  match ← readFlags s.flags [] false cs with
  | (flags, ':' :: rest) => return (← s.enter none flags, rest)
  | (flags, ')' :: rest) =>
    if cs.head? = some ')' then none else return ({ s with flags := flags }, rest)
  | _ => none

def open? (s : Reading) (cs : List Char) : Option (Reading × List Char) :=
  match s.flags.skip cs with
  | '?' :: '=' :: _ => none
  | '?' :: '!' :: _ => none
  | '?' :: '<' :: '=' :: _ => none
  | '?' :: '<' :: '!' :: _ => none
  | '?' :: 'P' :: '<' :: rest => s.enterNamed rest
  | '?' :: '<' :: rest => s.enterNamed rest
  | '?' :: rest => s.enterFlagged rest
  | rest => (s.enterCapture none).map (·, rest)

def repeat? (s : Reading) (min : Nat) (max : Option Nat) : Option Reading :=
  match s.items with
  | [] => none
  | item :: items => some { s with items := timesOf min max item :: items }

def step (s : Reading) (c : Char) (cs : List Char) : Option (Reading × List Char) :=
  match c with
  | '(' => s.open? cs
  | ')' => s.leave.map (·, cs)
  | '|' => some (s.nextBranch, cs)
  | '[' => (bracketed s.flags cs).map fun (r, rest) => (s.push r, rest)
  | '?' => (s.repeat? 0 (some 1)).map (·, dropReluctance cs)
  | '*' => (s.repeat? 0 none).map (·, dropReluctance cs)
  | '+' => (s.repeat? 1 none).map (·, dropReluctance cs)
  | '\x7b' => do
    let ((min, max), rest) ← counts s.flags cs
    return (← s.repeat? min max, rest)
  | c => (primitive s.flags c cs).map fun (r, rest) => (s.push r, rest)

/-- Reads to the end of a pattern. Every step takes up a character, so its length bounds the
steps. -/
def run : Nat → Reading → List Char → Option Reading
  | 0, _, _ => none
  | fuel + 1, s, cs =>
    match s.flags.skip cs with
    | [] => some s
    | c :: rest => do
      let (s, rest) ← s.step c rest
      run fuel s rest

end Reading

def parse? (pattern : List Char) : Option Regex := do
  let s ← Reading.run (pattern.length + 1) {} pattern
  if s.outer.isEmpty && s.body.isWithinLimits then some s.body else none

end DocumentStore.Regex
