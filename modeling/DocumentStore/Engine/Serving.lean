import DocumentStore.Engine.Reading
import DocumentStore.Engine.Writing

/-!
Requests answered by an engine, with the hooks they set off. Hooks may send requests of their own;
the depth to which such requests nest is bounded, and beyond the bound no answer comes.
-/

namespace DocumentStore

abbrev Outcome := Except Fault Response

abbrev Serve := Request → Engine → Option (Outcome × Engine)

def Script.run (serve : Serve) : Script → Engine → Option (HookAnswer × Engine)
  | .answer a, e => some (a, e)
  | .send request next, e =>
    match serve request e with
    | none => none
    | some (outcome, e) => (next outcome).run serve e
  | .register className kind hook next, e => next.run serve (e.register className kind hook)
  | .unregister className kind next, e => next.run serve (e.unregister className kind)
  | .clear next, e => next.run serve e.clear
  | .note entry next, e => next.run serve (e.note entry)

namespace Engine

def callHook (serve : Serve) (e : Engine) (request : HookRequest) :
    Option (Except Fault Record × Engine) :=
  match e.hooks.get? request.className request.kind with
  | none => some (.ok request.object, e)
  | some hook =>
    match (hook request).run serve e with
    | none => none
    | some (.replacement record, e) => some (.ok record, e)
    | some (.nothing, e) => some (.ok request.object, e)
    | some (.rejection value, e) => some (.error (.rejected value), e)

/-- Creates a record. The hook sees the payload, and operators count only afterwards. -/
def create (serve : Serve) (e : Engine) (className : String) (payload : Value) :
    Option (Outcome × Engine) :=
  match Record.ofPayload payload with
  | .error fault => some (.error fault, e)
  | .ok fields =>
    match e.callHook serve ⟨className, .beforeSave, fields, none⟩ with
    | none => none
    | some (.error fault, e) => some (.error fault, e)
    | some (.ok fields, e) =>
      match Draft.ofNew fields with
      | .error fault => some (.error fault, e)
      | .ok draft => (e.commitNew className draft).map fun (response, e) => (.ok response, e)

/-- Updates a record. The hook sees the changed record, and what it answers is stored. -/
def update (serve : Serve) (e : Engine) (className objectId : String) (payload : Value) :
    Option (Outcome × Engine) :=
  match e.contents.fetch className objectId with
  | none => some (.ok .notFound, e)
  | some stored =>
    match (Record.ofPayload payload).bind (Draft.ofChanges stored) with
    | .error fault => some (.error fault, e)
    | .ok draft =>
      match e.callHook serve ⟨className, .beforeSave, draft.record, some stored⟩ with
      | none => none
      | some (.error fault, e) => some (.error fault, e)
      | some (.ok record, e) =>
        let (response, e) := e.commitChanges className objectId ⟨record, draft.relations⟩
        some (.ok response, e)

def delete (serve : Serve) (e : Engine) (className objectId : String) : Option (Outcome × Engine) :=
  match e.contents.fetch className objectId with
  | none => some (.ok .notFound, e)
  | some stored =>
    match e.callHook serve ⟨className, .beforeDelete, stored, none⟩ with
    | none => none
    | some (.error fault, e) => some (.error fault, e)
    | some (.ok _, e) =>
      let (response, e) := e.commitRemoval className objectId
      some (.ok response, e)

def serveWith (nested : Serve) (request : Request) (e : Engine) : Option (Outcome × Engine) :=
  match request.operation, request.objectId with
  | .create, _ => e.create nested request.className request.payload
  | .read, some id => some (e.contents.readOne request.className id request.payload, e)
  | .read, none => some (e.contents.query e.settings request.className request.payload, e)
  | .update, some id => e.update nested request.className id request.payload
  | .delete, some id => e.delete nested request.className id
  | operation, none => some (.error (.document (.needsObjectId operation request.className)), e)

/-- Answers a request whose hooks nest requests at most so deep. -/
def serve : Nat → Serve
  | 0 => serveWith fun _ _ => none
  | depth + 1 => serveWith (serve depth)

end Engine

end DocumentStore
