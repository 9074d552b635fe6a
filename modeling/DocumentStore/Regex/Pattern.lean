import DocumentStore.Regex.Machine
import DocumentStore.Regex.Reader

/-!
Patterns of queries: regular expressions in which `\Q` and `\E` enclose text taken literally, with
flags beside them.
-/

namespace DocumentStore.Pattern

def isSpecial (c : Char) : Bool :=
  ['\\', '.', '+', '*', '?', '(', ')', '|', '[', ']', '\x7b', '\x7d', '^', '$', '#', '&', '-',
    '~'].contains c

def escapeChar (c : Char) : List Char := if isSpecial c then ['\\', c] else [c]

def escape (text : List Char) : List Char := text.flatMap escapeChar

/-- Replaces enclosed text by its escaped form; `inside` between `\Q` and `\E`, or the end. -/
def unquoteFrom (inside : Bool) : List Char → List Char
  | [] => []
  | '\\' :: 'Q' :: cs =>
    if inside then escape ['\\'] ++ unquoteFrom inside ('Q' :: cs) else unquoteFrom true cs
  | '\\' :: 'E' :: cs =>
    if inside then unquoteFrom false cs else '\\' :: unquoteFrom inside ('E' :: cs)
  | c :: cs => (if inside then escapeChar c else [c]) ++ unquoteFrom inside cs

def unquote (pattern : List Char) : List Char := unquoteFrom false pattern

def flags (options : String) : List Char := options.toList.filter ['i', 'm', 's', 'x'].contains

def source (pattern : String) (options : Option String) : List Char :=
  match flags (options.getD "") with
  | [] => unquote pattern.toList
  | letters => '(' :: '?' :: letters ++ ')' :: unquote pattern.toList

def compile? (pattern : String) (options : Option String) : Option Machine :=
  (Regex.parse? (source pattern options)).map Machine.ofRegex

end DocumentStore.Pattern
