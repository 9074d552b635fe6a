import DocumentStore.Hook

/-!
Hooks written as lists of actions, which a test suite can give as data.
-/

namespace DocumentStore

inductive HookAction where
  | set (fields : Record)
  | unset (field : String)
  | replace (fields : Record)
  | copyPrevious (source target : String)
  | reject (value : Value)
  | rejectIf (field : String) (equals : Option Value) (value : Value)
  | send (request : Request)
  | clear
  | unhook (className : String) (kind : HookKind)

namespace HookAction

def isSame : Option Value → Option Value → Bool
  | none, none => true
  | some a, some b => a.same b
  | _, _ => false

/-- Runs actions on a copy of the object; it is the answer once an action has changed it. -/
def script (request : HookRequest) : List HookAction → Record → Bool → Script
  | [], object, changed => .answer (if changed then .replacement object else .nothing)
  | action :: rest, object, changed =>
    match action with
    | .set fields => script request rest (KeyMap.overlay object fields) true
    | .unset field => script request rest (KeyMap.erase object field) true
    | .replace fields => script request rest fields true
    | .copyPrevious source target =>
      match request.previous.bind (KeyMap.get? · source) with
      | some v => script request rest (KeyMap.insert object target v) true
      | none => script request rest object changed
    | .reject value => .answer (.rejection value)
    | .rejectIf field equals value =>
      if isSame (KeyMap.get? request.object field) equals then .answer (.rejection value)
      else script request rest object changed
    | .send sent =>
      .send sent fun outcome => .note (.sent outcome) (script request rest object changed)
    | .clear => .clear (.note .cleared (script request rest object changed))
    | .unhook className kind =>
      .unregister className kind (.note .unhooked (script request rest object changed))

def hook (actions : List HookAction) : Hook :=
  fun request => .note (.called request) (script request actions request.object false)

end HookAction

end DocumentStore
