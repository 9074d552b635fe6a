import DocumentStore.Shape

/-!
Update operators as read from the fields of a payload.
-/

namespace DocumentStore

inductive UpdateOp where
  | increment (amount : Number)
  | add (objects : List Value)
  | addUnique (objects : List Value)
  | remove (objects : List Value)
  | delete
  | addRelation (objects : List Value)
  | removeRelation (objects : List Value)
  | batch (ops : List UpdateOp)

namespace UpdateOp

def name : UpdateOp → String
  | .increment _ => "Increment"
  | .add _ => "Add"
  | .addUnique _ => "AddUnique"
  | .remove _ => "Remove"
  | .delete => "Delete"
  | .addRelation _ => "AddRelation"
  | .removeRelation _ => "RemoveRelation"
  | .batch _ => "Batch"

mutual

def touchesRelation : UpdateOp → Bool
  | .addRelation _ => true
  | .removeRelation _ => true
  | .batch ops => anyTouchesRelation ops
  | _ => false

def anyTouchesRelation : List UpdateOp → Bool
  | [] => false
  | op :: ops => touchesRelation op || anyTouchesRelation ops

end

def objects (field : String) (fields : Record) : Except Fault (List Value) :=
  match KeyMap.get? fields "objects" with
  | none => .error (.operand field (.missing "objects"))
  | some (.arr items) => .ok items
  | some v => .error (.operand field (.notList "objects" v))

def amount (field : String) (fields : Record) : Except Fault Number :=
  match KeyMap.get? fields "amount" with
  | none => .error (.operand field (.missing "amount"))
  | some (.num n) => .ok n
  | some v => .error (.operand field (.amountNotNumber v))

def ofTag (field : String) (fields : Record) (tag : Value) : Except Fault UpdateOp :=
  match tag with
  | .str "Increment" => (amount field fields).map .increment
  | .str "Add" => (objects field fields).map .add
  | .str "AddUnique" => (objects field fields).map .addUnique
  | .str "Remove" => (objects field fields).map .remove
  | .str "Delete" => .ok .delete
  | .str "AddRelation" => (objects field fields).map .addRelation
  | .str "RemoveRelation" => (objects field fields).map .removeRelation
  | tag => .error (.unknownOperator tag)

mutual

/-- Reads the operator in a field. Anything but an object with `__op` is no operator. -/
def parse (field : String) : Value → Except Fault (Option UpdateOp)
  | .obj fields =>
    match KeyMap.get? fields "__op" with
    | none => .ok none
    | some (.str "Batch") => (parseOps field fields).map fun ops => some (.batch ops)
    | some tag => (ofTag field fields tag).map some
  | _ => .ok none

def parseOps (field : String) : List (String × Value) → Except Fault (List UpdateOp)
  | [] => .error (.operand field (.missing "ops"))
  | (k, v) :: rest =>
    if k = "ops" then
      match v with
      | .arr items => parseEntries field items
      | v => .error (.operand field (.notList "ops" v))
    else parseOps field rest

def parseEntries (field : String) : List Value → Except Fault (List UpdateOp)
  | [] => .ok []
  | v :: vs => do
    match ← parse field v with
    | none => throw (.operand field (.entryNotOperator v))
    | some op => return op :: (← parseEntries field vs)

end

def extract : Record → Except Fault (List (String × UpdateOp) × Record)
  | [] => .ok ([], [])
  | (field, v) :: rest => do
    let op ← parse field v
    let (ops, literals) ← extract rest
    match op with
    | some op => return ((field, op) :: ops, literals)
    | none => return (ops, (field, v) :: literals)

end UpdateOp

end DocumentStore
