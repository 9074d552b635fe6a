import DocumentStore.Equality
import DocumentStore.Update.Operator

/-!
What update operators do. Each acts on the value of its own field; on a record they act in turn, all
or none.
-/

namespace DocumentStore.UpdateOp

/-- The list in a field. A field that is absent or not truthy starts an empty one. -/
def listOf (field : String) (current : Option Value) : Except Fault (List Value) :=
  if isTruthy current then
    match current with
    | some (.arr items) => .ok items
    | _ => .error (.notAList field)
  else .ok []

/-- Adds the objects that no entry stands for yet, those added before them included. -/
def unite (entries objects : List Value) : List Value :=
  objects.foldl (fun list object =>
    if list.any (·.sameEntry object) then list else list ++ [object]) entries

/-- The elements that no object equals, each object being the stored side of the equality rule. -/
def withoutObjects (items objects : List Value) : List Value :=
  items.filter fun item => !objects.any fun object => fieldEquals (some object) (some item)

def incremented (field : String) (amount : Number) (current : Option Value) : Except Fault Value :=
  match present? current with
  | none => sum .zero
  | some (.num n) => sum n
  | some v => .error (.operand field (.notIncrementable v))
where
  sum (n : Number) : Except Fault Value :=
    match n.add amount with
    | .ok total => .ok (.num total)
    | .error sign => .error (.operand field (.overflow sign))

def removed (field : String) (objects : List Value) (current : Option Value) :
    Except Fault (Option Value) :=
  match present? current with
  | none => .ok current
  | some (.arr items) => .ok (some (.arr (withoutObjects items objects)))
  | some _ => .error (.notAList field)

mutual

def result (field : String) : UpdateOp → Option Value → Except Fault (Option Value)
  | .increment amount, current => (incremented field amount current).map some
  | .add objects, current => (listOf field current).map fun items => some (.arr (items ++ objects))
  | .addUnique objects, current =>
    (listOf field current).map fun items => some (.arr (unite items objects))
  | .remove objects, current => removed field objects current
  | .delete, _ => .ok none
  | .addRelation objects, current =>
    (listOf field current).map fun items => some (.arr (items ++ objects))
  | .removeRelation objects, current => removed field objects current
  | .batch ops, current => resultOfAll field ops current

def resultOfAll (field : String) : List UpdateOp → Option Value → Except Fault (Option Value)
  | [], current => .ok current
  | op :: ops, current => do resultOfAll field ops (← result field op current)

end

def setField (record : Record) (field : String) : Option Value → Record
  | some v => KeyMap.insert record field v
  | none => KeyMap.erase record field

def applyAll : Record → List (String × UpdateOp) → Except Fault Record
  | record, [] => .ok record
  | record, (field, op) :: ops => do
    let v ← op.result field (KeyMap.get? record field)
    applyAll (setField record field v) ops

def relationFields (ops : List (String × UpdateOp)) : List String :=
  (ops.filter (·.2.touchesRelation)).foldl (fun fields e =>
    if fields.contains e.1 then fields else fields ++ [e.1]) []

end DocumentStore.UpdateOp
