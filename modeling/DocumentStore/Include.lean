import DocumentStore.Contents
import DocumentStore.Query.Params
import DocumentStore.Shape

/-!
Include paths: pointers in results are replaced by the records they name.
-/

namespace DocumentStore

inductive Referent where
  | record (fields : Record)
  | missing
  | nothing

/-- A stored record as it stands in the place of a pointer: tagged, with its class, and without
hidden fields. -/
def expanded (contents : Contents) (className : String) (stored : Record) : Record :=
  contents.visible className
    (KeyMap.overlay [("__type", .str "Object"), ("className", .str className)] stored)

/-- What a value refers to. A record put in the place of a pointer before refers to itself. -/
def dereference (contents : Contents) (v : Value) : Referent :=
  match v with
  | .obj fields =>
    if v.typeTag? == some "Object" then .record fields
    else match Pointer.ofValue? v with
      | none => .nothing
      | some p =>
        match contents.fetch p.className p.objectId with
        | none => .missing
        | some stored => .record (expanded contents p.className stored)
  | _ => .nothing

/-- Follows one path from a record. In a list, what is missing becomes `null`; elsewhere its field
goes. -/
def includePath (contents : Contents) : IncludePath → Record → Record
  | [], record => record
  | segment :: rest, record =>
    match KeyMap.get? record segment with
    | none => record
    | some (.arr items) =>
      KeyMap.insert record segment <| .arr <| items.map fun item =>
        match dereference contents item with
        | .record fields => .obj (includePath contents rest fields)
        | .missing => .null
        | .nothing => item
    | some v =>
      match dereference contents v with
      | .record fields => KeyMap.insert record segment (.obj (includePath contents rest fields))
      | .missing => KeyMap.erase record segment
      | .nothing => record

def includeAll (contents : Contents) (paths : List IncludePath) (record : Record) : Record :=
  paths.foldl (fun r path => includePath contents path r) record

end DocumentStore
