import DocumentStore.KeyMap
import DocumentStore.Number

/-!
The values of documents, and records: objects of named fields in the order of their names.
-/

namespace DocumentStore

inductive Value where
  | null
  | bool (flag : Bool)
  | num (number : Number)
  | str (text : String)
  | arr (items : List Value)
  | obj (fields : List (String × Value))

abbrev Record := KeyMap Value

instance : Inhabited Value := ⟨.null⟩

namespace Value

def field? : Value → String → Option Value
  | .obj fields, name => KeyMap.get? fields name
  | _, _ => none

def asText? : Value → Option String
  | .str s => some s
  | _ => none

theorem asText?_eq_some_iff {v : Value} {text : String} :
    v.asText? = some text ↔ v = .str text := by
  cases v <;> simp [asText?]

def textField? (v : Value) (name : String) : Option String := (v.field? name).bind asText?

def asItems : Value → List Value
  | .arr items => items
  | v => [v]

mutual

/-- The same document value: integers and doubles differ, and doubles are the same when equal in
value. -/
def same : Value → Value → Bool
  | .null, .null => true
  | .bool a, .bool b => a == b
  | .num a, .num b => a.sameKind b
  | .str a, .str b => a == b
  | .arr a, .arr b => sameItems a b
  | .obj a, .obj b => sameFields a b
  | _, _ => false

def sameItems : List Value → List Value → Bool
  | [], [] => true
  | a :: as, b :: bs => same a b && sameItems as bs
  | _, _ => false

def sameFields : List (String × Value) → List (String × Value) → Bool
  | [], [] => true
  | (k, a) :: as, (l, b) :: bs => k == l && same a b && sameFields as bs
  | _, _ => false

end

mutual

def depth : Value → Nat
  | .arr items => depthItems items + 1
  | .obj fields => depthFields fields + 1
  | _ => 0

def depthItems : List Value → Nat
  | [] => 0
  | v :: vs => max (depth v) (depthItems vs)

def depthFields : List (String × Value) → Nat
  | [] => 0
  | (_, v) :: vs => max (depth v) (depthFields vs)

end

end Value

def present? : Option Value → Option Value
  | some .null => none
  | field => field

end DocumentStore
