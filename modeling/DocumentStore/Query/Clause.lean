import DocumentStore.Shape
import DocumentStore.Text.Blank

/-!
Where clauses as read: a tree of conjunctions, disjunctions and tests. Parameters of operators stay
as they were written, so a sub-query inside one is read when it is run.
-/

namespace DocumentStore

structure FieldPath where
  parents : List String
  key : String
deriving DecidableEq

def FieldPath.parse (text : String) : FieldPath :=
  let pieces := Text.split '.' text
  ⟨pieces.dropLast, pieces.getLast?.getD ""⟩

inductive Constraint where
  | operator (op : Operator) (param : Value)
  | subKey (key : String) (param : Value)

namespace Constraint

def ofEntry (entry : String × Value) : Constraint :=
  match Operator.ofKey? entry.1 with
  | some op => .operator op entry.2
  | none => .subKey entry.1 entry.2

end Constraint

inductive FieldTest where
  | equals (param : Value)
  | constraints (list : List Constraint)

/-- An object that is neither a pointer nor a date lists constraints; any other value is
compared. -/
def FieldTest.ofValue : Value → FieldTest
  | .obj fields =>
    if (Value.obj fields).isPointer || (Value.obj fields).isDate then .equals (.obj fields)
    else .constraints (fields.map Constraint.ofEntry)
  | v => .equals v

inductive Clause where
  | and (parts : List Clause)
  | or (parts : List Clause)
  | record (op : Operator) (param : Value)
  | field (path : FieldPath) (test : FieldTest)

namespace Clause

def matchAll : Clause := .and []

def ofEntry (entry : String × Value) : Clause :=
  match Operator.ofKey? entry.1 with
  | some op => .record op entry.2
  | none => .field (FieldPath.parse entry.1) (FieldTest.ofValue entry.2)

mutual

/-- Reads a where clause. `$or` stands for the whole clause it is in, and so does `$and` where there
is no `$or`. -/
def parse : Value → Except Fault Clause
  | .null => .ok matchAll
  | .obj fields =>
    match branches? "$or" fields with
    | some parts => parts.map .or
    | none =>
      match branches? "$and" fields with
      | some parts => parts.map .and
      | none => .ok (.and (fields.map ofEntry))
  | v => .error (.query (.clauseNotObject v))

def branches? (key : String) : List (String × Value) → Option (Except Fault (List Clause))
  | [] => none
  | (k, v) :: rest =>
    if k = key then
      match v with
      | .arr items => some (parseEach items)
      | v => some (.error (.query (.branchesNotList key v)))
    else branches? key rest

def parseEach : List Value → Except Fault (List Clause)
  | [] => .ok []
  | v :: vs => do
    let clause ← parse v
    let rest ← parseEach vs
    return clause :: rest

end

/-- The parameter of `$relatedTo`, where it is the clause itself or a direct part of a
conjunction. -/
def relatedTo? : Clause → Option Value
  | .record .relatedTo param => some param
  | .and parts => parts.findSome? fun
    | .record .relatedTo param => some param
    | _ => none
  | _ => none

def constraintDepth : Constraint → Nat
  | .operator _ param => param.depth
  | .subKey _ param => param.depth

def testDepth : FieldTest → Nat
  | .equals param => param.depth
  | .constraints list => (list.map constraintDepth).foldl max 0

mutual

/-- How deep the parameters of a clause nest. It bounds how many sub-queries can be inside each
other. -/
def depth : Clause → Nat
  | .and parts => depthOf parts
  | .or parts => depthOf parts
  | .record _ param => param.depth
  | .field _ test => testDepth test

def depthOf : List Clause → Nat
  | [] => 0
  | c :: cs => max (depth c) (depthOf cs)

end

end Clause

end DocumentStore
