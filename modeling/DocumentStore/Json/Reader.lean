import DocumentStore.Json.Token

/-!
Reading JSON: one pass over the tokens, with the open lists and objects on a stack.
-/

namespace DocumentStore.Json

/-- A list or object that is not closed yet, with what it holds so far; an object also the key of
the value to come. -/
inductive Open where
  | list (items : List Value)
  | object (fields : Record) (key : String)

inductive Awaiting where
  | value
  | valueOrClose
  | keyOrClose
  | key
  | colon
  | separator

inductive Reading where
  | inside (stack : List Open) (awaiting : Awaiting)
  | done (value : Value)

/-- Puts a finished value where it belongs. Of a repeated key the last value stands. -/
def place (v : Value) : List Open → Reading
  | [] => .done v
  | .list items :: rest => .inside (.list (v :: items) :: rest) .separator
  | .object fields key :: rest =>
    .inside (.object (KeyMap.insert fields key v) key :: rest) .separator

def enter (limit : Nat) (container : Open) (awaiting : Awaiting) (stack : List Open) :
    Option Reading :=
  if stack.length < limit then some (.inside (container :: stack) awaiting) else none

def start (limit : Nat) (stack : List Open) : Token → Option Reading
  | .scalar v => some (place v stack)
  | .openBracket => enter limit (.list []) .valueOrClose stack
  | .openBrace => enter limit (.object [] "") .keyOrClose stack
  | _ => none

def read (limit : Nat) : Reading → Token → Option Reading
  | .done _, _ => none
  | .inside stack .value, t => start limit stack t
  | .inside (.list _ :: rest) .valueOrClose, .closeBracket => some (place (.arr []) rest)
  | .inside stack .valueOrClose, t => start limit stack t
  | .inside (.object _ _ :: rest) .keyOrClose, .closeBrace => some (place (.obj []) rest)
  | .inside (.object fields _ :: rest) .keyOrClose, .scalar (.str k)
  | .inside (.object fields _ :: rest) .key, .scalar (.str k) =>
    some (.inside (.object fields k :: rest) .colon)
  | .inside stack .colon, .colon => some (.inside stack .value)
  | .inside (.list items :: rest) .separator, .comma => some (.inside (.list items :: rest) .value)
  | .inside (.list items :: rest) .separator, .closeBracket =>
    some (place (.arr items.reverse) rest)
  | .inside (.object fields k :: rest) .separator, .comma =>
    some (.inside (.object fields k :: rest) .key)
  | .inside (.object fields _ :: rest) .separator, .closeBrace => some (place (.obj fields) rest)
  | _, _ => none

def readAll (limit : Nat) : Reading → List Token → Option Reading
  | state, [] => some state
  | state, t :: ts => (read limit state t).bind (readAll limit · ts)

/-- The value a text holds, if it is one JSON value whose lists and objects nest at most `limit`
deep. -/
def parse? (limit : Nat) (text : String) : Option Value := do
  let tokens ← scan? .nothing text.toList
  match ← readAll limit (.inside [] .value) tokens with
  | .done v => some v
  | .inside _ _ => none

end DocumentStore.Json
