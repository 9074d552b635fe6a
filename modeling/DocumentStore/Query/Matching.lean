import DocumentStore.Contents
import DocumentStore.Equality
import DocumentStore.Order
import DocumentStore.Query.Clause
import DocumentStore.Regex.Pattern

/-!
Which records a where clause matches. Sub-queries read the same contents; each is part of the
parameter it is found in, so the depth of a clause bounds how many are inside each other.
-/

namespace DocumentStore

/--
Follows a path from a record. `none` when a field on the way is absent or not truthy; a last field
on the way that is truthy but no object has no fields.
-/
def resolve : Record → List String → String → Option (Option Value)
  | record, [], key => some (KeyMap.get? record key)
  | record, p :: ps, key =>
    match KeyMap.get? record p with
    | some (.obj nested) => resolve nested ps key
    | field => if isTruthy field && ps.isEmpty then some none else none

abbrev Find := String → Clause → Except Fault (List Record)

def lacks {α : Type} (op : Operator) (part : ParameterPart) : Except Fault α :=
  .error (.query (.parameter op part))

def subQuery (find : Find) (op : Operator) (query : Value) : Except Fault (List Record) :=
  match query.textField? "className" with
  | none => lacks op .className
  | some className => do
    let clause ← Clause.parse ((query.field? "where").getD .null)
    find className clause

def selected (find : Find) (op : Operator) (field : Option Value) (param : Value) :
    Except Fault Bool :=
  match param.textField? "key", param.field? "query" with
  | none, _ => lacks op .key
  | some _, none => lacks op .query
  | some key, some query => do
    let found ← subQuery find op query
    return found.any fun record => fieldEquals (KeyMap.get? record key) field

/-- The field carries the `objectId` of some record of a sub-query, which is not run for a field
without one. -/
def pointsInto (find : Find) (op : Operator) (field : Option Value) (param : Value) :
    Except Fault Bool :=
  match field.bind Value.objectId? with
  | none => .ok false
  | some id => do
    let found ← subQuery find op param
    return found.any fun record => (KeyMap.get? record "objectId").bind Value.asText? == some id

def relationItems (contents : Contents) (owner : Pointer) (key : String) : List Value :=
  (((contents.fetch owner.className owner.objectId).bind (KeyMap.get? · key)).map
    Value.asItems).getD []

def related (contents : Contents) (param : Value) (subject : Option Pointer) : Except Fault Bool :=
  match (param.field? "object").bind Pointer.ofValue?, param.textField? "key" with
  | none, _ => lacks .relatedTo .objectPointer
  | some _, none => lacks .relatedTo .key
  | some owner, some key =>
    .ok (subject.any fun s =>
      ((relationItems contents owner key).filterMap Pointer.ofValue?).contains s)

def matchesPattern (field : Option Value) (param : Value) (options : Option String) :
    Except Fault Bool :=
  match param, field with
  | .str pattern, some (.str text) =>
    match Pattern.compile? pattern options with
    | some machine => .ok (machine.isMatch text)
    | none => .error (.query (.pattern pattern))
  | .str _, _ => .ok false
  | _, _ => lacks .regex .pattern

def equalsSome (field : Option Value) (param : Value) : Bool :=
  param.asItems.any fun item => fieldEquals field (some item)

def Operator.holds (contents : Contents) (find : Find) (op : Operator) (field : Option Value)
    (param : Value) (options : Option String) : Except Fault Bool :=
  match op with
  | .present => .ok (isTruthy field == param.isTruthy)
  | .oneOf => .ok (equalsSome field param)
  | .noneOf => .ok (!equalsSome field param)
  | .eq => .ok (fieldEquals field (some param))
  | .ne => .ok (!fieldEquals field (some param))
  | .lt => .ok (compareField? field param == some .lt)
  | .lte => .ok (compareField? field param == some .lt || compareField? field param == some .eq)
  | .gt => .ok (compareField? field param == some .gt)
  | .gte => .ok (compareField? field param == some .gt || compareField? field param == some .eq)
  | .regex => matchesPattern field param options
  | .options => .ok true
  | .select => selected find op field param
  | .dontSelect => (selected find op field param).map (!·)
  | .inQuery => pointsInto find op field param
  | .notInQuery => (pointsInto find op field param).map (!·)
  | .all =>
    .ok (match field with
      | some (.arr items) =>
        param.asItems.all fun item => fieldEquals (some (.arr items)) (some item)
      | _ => false)
  | .relatedTo => related contents param (field.bind Pointer.ofValue?)

def optionsOf (constraints : List Constraint) : Option String :=
  constraints.findSome? fun
    | .operator .options (.str flags) => some flags
    | _ => none

def Constraint.holds (contents : Contents) (find : Find) (field : Option Value)
    (options : Option String) :
    Constraint → Except Fault Bool
  | .operator op param => op.holds contents find field param options
  | .subKey key param => .ok (fieldEquals (field.bind (·.field? key)) (some param))

def allHold {α : Type} (test : α → Except Fault Bool) : List α → Except Fault Bool
  | [] => .ok true
  | a :: as => do if ← test a then allHold test as else return false

def FieldTest.holds (contents : Contents) (find : Find) (field : Option Value) :
    FieldTest → Except Fault Bool
  | .equals param => .ok (fieldEquals field (some param))
  | .constraints list => allHold (Constraint.holds contents find field (optionsOf list)) list

def memberPointer (className : String) (record : Record) : Option Pointer :=
  ((KeyMap.get? record "objectId").bind Value.asText?).map (⟨className, ·⟩)

namespace Clause

mutual

/-- Whether a record of a class matches. Parts after the deciding one are not looked at. -/
def holds (contents : Contents) (find : Find) (className : String) (record : Record) :
    Clause → Except Fault Bool
  | .and parts => holdsEach contents find className record parts
  | .or parts => holdsAny contents find className record parts
  | .record .relatedTo param => related contents param (memberPointer className record)
  | .record op param => op.holds contents find (some (.obj record)) param none
  | .field path test =>
    match resolve record path.parents path.key with
    | none => .ok false
    | some value => test.holds contents find value

def holdsEach (contents : Contents) (find : Find) (className : String) (record : Record) :
    List Clause → Except Fault Bool
  | [] => .ok true
  | c :: cs => do
    if ← holds contents find className record c then
      holdsEach contents find className record cs
    else return false

def holdsAny (contents : Contents) (find : Find) (className : String) (record : Record) :
    List Clause → Except Fault Bool
  | [] => .ok false
  | c :: cs => do
    if ← holds contents find className record c then return true
    else holdsAny contents find className record cs

end

end Clause

def select (test : Record → Except Fault Bool) : List Record → Except Fault (List Record)
  | [] => .ok []
  | r :: rs => do
    let keep ← test r
    let rest ← select test rs
    return if keep then r :: rest else rest

/-- The records of a class that match, with at most so many sub-queries inside each other. -/
def matchingWithin (contents : Contents) : Nat → Find
  | 0, className, clause =>
    select (fun record => clause.holds contents (fun _ _ => .ok []) className record)
      (contents.records className)
  | n + 1, className, clause =>
    select (fun record => clause.holds contents (matchingWithin contents n) className record)
      (contents.records className)

def matching (contents : Contents) (className : String) (clause : Clause) :
    Except Fault (List Record) :=
  matchingWithin contents clause.depth className clause

end DocumentStore
