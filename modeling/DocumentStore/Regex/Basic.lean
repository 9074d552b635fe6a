import DocumentStore.Regex.Classes

/-!
Regular expressions as read, and the two bounds on them: how deep they nest and how large they are
when spelled out.
-/

namespace DocumentStore

inductive Look where
  | textStart
  | textEnd
  | lineStart
  | lineEnd
  | crlfStart
  | crlfEnd
  | wordBoundary
  | notWordBoundary
  | wordStart
  | wordEnd
  | wordStartHalf
  | wordEndHalf
deriving DecidableEq

def Look.holds (before after : Option Char) : Look → Bool
  | .textStart => before.isNone
  | .textEnd => after.isNone
  | .lineStart => before.isNone || before == some '\n'
  | .lineEnd => after.isNone || after == some '\n'
  | .crlfStart =>
    before.isNone || before == some '\n' || (before == some '\r' && after != some '\n')
  | .crlfEnd => after.isNone || after == some '\r' || (after == some '\n' && before != some '\r')
  | .wordBoundary => isWord before != isWord after
  | .notWordBoundary => isWord before == isWord after
  | .wordStart => !isWord before && isWord after
  | .wordEnd => isWord before && !isWord after
  | .wordStartHalf => !isWord before
  | .wordEndHalf => !isWord after
where
  isWord (c : Option Char) : Bool := c.any CharSet.word.contains

structure Capture where
  index : Nat
  name : Option String
deriving DecidableEq

inductive Regex where
  | char (c : Char)
  | chars (set : CharSet)
  | look (condition : Look)
  | times (min : Nat) (max : Option Nat) (body : Regex)
  | group (capture : Capture) (body : Regex)
  | concat (parts : List Regex)
  | alternate (parts : List Regex)

namespace Regex

def empty : Regex := .concat []

def concatOf : List Regex → Regex
  | [r] => r
  | parts => .concat parts

def alternateOf : List Regex → Regex
  | [r] => r
  | parts => .alternate parts

def timesOf (min : Nat) (max : Option Nat) (body : Regex) : Regex :=
  if max = some 0 then empty else if min = 1 ∧ max = some 1 then body else .times min max body

mutual

def nesting : Regex → Nat
  | .times _ _ body => nesting body + 1
  | .group _ body => nesting body + 1
  | .concat parts => nestingOf parts
  | .alternate parts => nestingOf parts
  | _ => 0

def nestingOf : List Regex → Nat
  | [] => 0
  | r :: rs => max (nesting r + 1) (nestingOf rs)

end

mutual

def matchesEmpty : Regex → Bool
  | .char _ => false
  | .chars _ => false
  | .look _ => true
  | .times min _ body => min == 0 || matchesEmpty body
  | .group _ body => matchesEmpty body
  | .concat parts => allMatchEmpty parts
  | .alternate parts => anyMatchesEmpty parts

def allMatchEmpty : List Regex → Bool
  | [] => true
  | r :: rs => matchesEmpty r && allMatchEmpty rs

def anyMatchesEmpty : List Regex → Bool
  | [] => false
  | r :: rs => matchesEmpty r || anyMatchesEmpty rs

end

/-- The size of one state of an automaton, in bytes; a choice adds four for each way, and a set
eight for each range. -/
def stateSize : Nat := 32

mutual

def size : Regex → Nat
  | .char _ => stateSize
  | .chars set => stateSize + 8 * set.length
  | .look _ => stateSize
  | .times min max body =>
    let one := size body
    let choice := stateSize + 8
    let copies (n : Nat) := if n = 0 then stateSize else n * one
    match min, max with
    | 0, some 1 => one + choice + stateSize
    | 0, none => if matchesEmpty body then one + 2 * choice + stateSize else one + choice
    | m, none => copies m + choice
    | m, some n => if m = n then copies m else copies m + stateSize + (n - m) * (one + choice)
  | .group _ body => size body + 2 * stateSize
  | .concat parts => if parts.isEmpty then stateSize else sizeOfAll parts
  | .alternate parts => sizeOfAll parts + 2 * stateSize + 4 * parts.length

def sizeOfAll : List Regex → Nat
  | [] => 0
  | r :: rs => size r + sizeOfAll rs

end

mutual

def captures : Regex → List Capture
  | .times _ _ body => captures body
  | .group capture body => capture :: captures body
  | .concat parts => capturesOfAll parts
  | .alternate parts => capturesOfAll parts
  | _ => []

def capturesOfAll : List Regex → List Capture
  | [] => []
  | r :: rs => captures r ++ capturesOfAll rs

end

/--
The size of the table of groups: sixteen bytes for the whole match and for each group up to the
last, and four bytes more than its name takes for each group with a name.
-/
def tableSize (captures : List Capture) : Nat :=
  16 * ((captures.map (·.index)).foldl max 0 + 1) +
    (captures.map fun c => (c.name.map (·.utf8ByteSize + 4)).getD 0).foldl (· + ·) 0

def nestingLimit : Nat := 50

def sizeLimit : Nat := 10 * 1024 * 1024

def isWithinLimits (r : Regex) : Bool :=
  r.nesting ≤ nestingLimit && r.size + 3 * stateSize + tableSize r.captures ≤ sizeLimit

end Regex

end DocumentStore
