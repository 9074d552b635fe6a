import DocumentStore.Engine.State
import DocumentStore.Update.Apply

/-!
Writes, without their hooks: what is prepared from a payload, and what is committed.
-/

namespace DocumentStore

structure Draft where
  record : Record
  relations : List String

namespace Draft

/-- The draft of a new record: operators act on the other fields, and identity fields do not
count. -/
def ofNew (fields : Record) : Except Fault Draft := do
  let (ops, literals) ← UpdateOp.extract (KeyMap.without fields identityFields)
  let record ← UpdateOp.applyAll literals ops
  return ⟨record, UpdateOp.relationFields ops⟩

def ofChanges (stored changes : Record) : Except Fault Draft := do
  let (ops, literals) ← UpdateOp.extract changes
  let record ← UpdateOp.applyAll
    (KeyMap.overlay stored (KeyMap.without literals identityFields)) ops
  return ⟨record, UpdateOp.relationFields ops⟩

end Draft

/-- The stamp of a change: the time now, or the previous stamp where that is later. -/
def laterStamp (previous : Option Value) (now : String) : String :=
  match previous.bind Value.asText? with
  | none => now
  | some text =>
    match Instant.parse? text, Instant.parse? now with
    | some before, some current => if before.compare current = .gt then text else now
    | _, _ => now

namespace Engine

/-- Stores a draft as a new record of a class. No answer comes when the class has used up its
ids. -/
def commitNew (e : Engine) (className : String) (draft : Draft) : Option (Response × Engine) :=
  match e.ids.next? e.settings.objectIdLength (e.contents.collection className).ids with
  | none => none
  | some (id, ids) =>
    let (now, e) := { e with ids := ids }.stamp
    let record := KeyMap.insert (KeyMap.insert (KeyMap.insert draft.record "objectId" (.str id))
      "createdAt" (.str now)) "updatedAt" (.str now)
    let contents := (e.contents.hide className draft.relations).insert className id record
    some (.created (.obj (contents.visible className record)), { e with contents := contents })

def commitChanges (e : Engine) (className objectId : String) (draft : Draft) : Response × Engine :=
  match e.contents.fetch className objectId with
  | none => (.notFound, e)
  | some current =>
    let (now, e) := e.stamp
    let named := KeyMap.insert draft.record "objectId" (.str objectId)
    let dated := match KeyMap.get? current "createdAt" with
      | some createdAt => KeyMap.insert named "createdAt" createdAt
      | none => KeyMap.erase named "createdAt"
    let record :=
      KeyMap.insert dated "updatedAt" (.str (laterStamp (KeyMap.get? current "updatedAt") now))
    let contents := (e.contents.hide className draft.relations).insert className objectId record
    (.ok (.obj (contents.visible className (KeyMap.without record ["objectId", "createdAt"]))),
      { e with contents := contents })

def commitRemoval (e : Engine) (className objectId : String) : Response × Engine :=
  match e.contents.fetch className objectId with
  | none => (.notFound, e)
  | some _ => (.ok (.obj []), { e with contents := e.contents.erase className objectId })

end Engine

end DocumentStore
