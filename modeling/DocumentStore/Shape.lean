import DocumentStore.Fault
import DocumentStore.Instant.Text

/-!
The shapes that values take inside records: tagged pointers and dates, identity fields, and
truthiness.
-/

namespace DocumentStore

def identityFields : List String := ["objectId", "createdAt", "updatedAt"]

structure Pointer where
  className : String
  objectId : String
deriving DecidableEq

namespace Pointer

/-- Reads whatever carries a text `className` and a text `objectId`: pointers, and records put in
their place. -/
def ofValue? (v : Value) : Option Pointer := do
  let className ← v.textField? "className"
  let objectId ← v.textField? "objectId"
  return ⟨className, objectId⟩

def toValue (p : Pointer) : Value :=
  .obj [("__type", .str "Pointer"), ("className", .str p.className), ("objectId", .str p.objectId)]

def decode? : Value → Option Pointer
  | .arr [.str className, .str objectId] => some ⟨className, objectId⟩
  | v => ofValue? v

theorem ofValue?_toValue (p : Pointer) : ofValue? p.toValue = some p := rfl

end Pointer

namespace Value

def typeTag? (v : Value) : Option String := v.textField? "__type"

def isPointer (v : Value) : Bool := v.typeTag? == some "Pointer"

def isDate (v : Value) : Bool := v.typeTag? == some "Date" && (v.textField? "iso").isSome

def dateInstant? (v : Value) : Option Instant :=
  if v.isDate then (v.textField? "iso").bind Instant.parse? else none

def ofInstant (t : Instant) : Value := .obj [("__type", .str "Date"), ("iso", .str t.format)]

def objectId? (v : Value) : Option String := v.textField? "objectId"

def isTruthy : Value → Bool
  | .null => false
  | .bool b => b
  | .num n => !n.toDouble.isZero
  | .str s => !s.isEmpty
  | .arr _ => true
  | .obj _ => true

end Value

def isTruthy (field : Option Value) : Bool := field.any Value.isTruthy

/-- A payload as a record: an object, or nothing for `null`. -/
def Record.ofPayload : Value → Except Fault Record
  | .obj fields => .ok fields
  | .null => .ok []
  | v => .error (.document (.notObject v))

end DocumentStore
