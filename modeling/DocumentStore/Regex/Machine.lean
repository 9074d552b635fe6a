import DocumentStore.Regex.Basic

/-!
Matching by marks. Each set of characters of an expression carries a mark, which tells that some
match can have just taken up that set; one character moves all marks at once, so a text is searched
in one pass whatever the expression.
-/

namespace DocumentStore

/-- A regular expression with a mark on each set of characters. Only endless repetition is left. -/
inductive Machine where
  | chars (set : CharSet) (marked : Bool)
  | look (condition : Look)
  | concat (parts : List Machine)
  | alternate (parts : List Machine)
  | star (body : Machine)

namespace Machine

def empty : Machine := .concat []

def option (m : Machine) : Machine := .alternate [m, empty]

mutual

def ofRegex : Regex → Machine
  | .char c => .chars (CharSet.single c) false
  | .chars set => .chars set false
  | .look l => .look l
  | .times min max body =>
    let m := ofRegex body
    match max with
    | none => .concat (List.replicate min m ++ [.star m])
    | some n => .concat (List.replicate min m ++ List.replicate (n - min) m.option)
  | .group _ body => ofRegex body
  | .concat parts => .concat (ofRegexes parts)
  | .alternate parts => .alternate (ofRegexes parts)

def ofRegexes : List Regex → List Machine
  | [] => []
  | r :: rs => ofRegex r :: ofRegexes rs

end

abbrev Place := Look → Bool

mutual

def acceptsEmpty (place : Place) : Machine → Bool
  | .chars _ _ => false
  | .look l => place l
  | .concat parts => allAcceptEmpty place parts
  | .alternate parts => anyAcceptsEmpty place parts
  | .star _ => true

def allAcceptEmpty (place : Place) : List Machine → Bool
  | [] => true
  | m :: ms => acceptsEmpty place m && allAcceptEmpty place ms

def anyAcceptsEmpty (place : Place) : List Machine → Bool
  | [] => false
  | m :: ms => acceptsEmpty place m || anyAcceptsEmpty place ms

end

mutual

def accepts (place : Place) : Machine → Bool
  | .chars _ marked => marked
  | .look _ => false
  | .concat parts => acceptsInTurn place false parts
  | .alternate parts => anyAccepts place parts
  | .star body => accepts place body

/-- Some part accepts, or `ended` holds before them all, and the parts after match without a
character. -/
def acceptsInTurn (place : Place) (ended : Bool) : List Machine → Bool
  | [] => ended
  | m :: ms => acceptsInTurn place (accepts place m || (ended && acceptsEmpty place m)) ms

def anyAccepts (place : Place) : List Machine → Bool
  | [] => false
  | m :: ms => accepts place m || anyAccepts place ms

end

mutual

def shift (place : Place) (c : Char) (entering : Bool) : Machine → Machine
  | .chars set _ => .chars set (entering && set.contains c)
  | .look l => .look l
  | .concat parts => .concat (shiftInTurn place c entering parts)
  | .alternate parts => .alternate (shiftEach place c entering parts)
  | .star body => .star (shift place c (entering || accepts place body) body)

def shiftInTurn (place : Place) (c : Char) (entering : Bool) : List Machine → List Machine
  | [] => []
  | m :: ms =>
    shift place c entering m ::
      shiftInTurn place c (accepts place m || (entering && acceptsEmpty place m)) ms

def shiftEach (place : Place) (c : Char) (entering : Bool) : List Machine → List Machine
  | [] => []
  | m :: ms => shift place c entering m :: shiftEach place c entering ms

end

/-- Searches the rest of a text, after the character `before`. A match may start at every place. -/
def search (m : Machine) (before : Option Char) : List Char → Bool
  | [] =>
    let place := Look.holds before none
    acceptsEmpty place m || accepts place m
  | c :: cs =>
    let place := Look.holds before (some c)
    acceptsEmpty place m || accepts place m || search (shift place c true m) (some c) cs

def isMatch (m : Machine) (text : String) : Bool := m.search none text.toList

end Machine

end DocumentStore
