import DocumentStore.Fault

/-!
Hooks: what runs before a record is saved or deleted. A hook is a finite program that may call the
engine back before it answers.
-/

namespace DocumentStore

inductive HookKind where
  | beforeSave
  | beforeDelete
deriving DecidableEq

def HookKind.name : HookKind → String
  | .beforeSave => "BeforeSave"
  | .beforeDelete => "BeforeDelete"

structure HookRequest where
  className : String
  kind : HookKind
  /-- The record about to be stored, or the stored one that is about to go. -/
  object : Record
  /-- The stored record that an update changes. -/
  previous : Option Record

inductive HookAnswer where
  | replacement (record : Record)
  | nothing
  | rejection (value : Value)

inductive JournalEntry where
  | called (request : HookRequest)
  | sent (outcome : Except Fault Response)
  | cleared
  | unhooked

/-- The run of a hook on one request: steps that call the engine, and at last an answer. -/
inductive Script where
  | answer (answer : HookAnswer)
  | send (request : Request) (next : Except Fault Response → Script)
  | register (className : String) (kind : HookKind) (hook : HookRequest → Script) (next : Script)
  | unregister (className : String) (kind : HookKind) (next : Script)
  | clear (next : Script)
  | note (entry : JournalEntry) (next : Script)

abbrev Hook := HookRequest → Script

abbrev HookRegistry := List ((String × HookKind) × Hook)

namespace HookRegistry

def get? (registry : HookRegistry) (className : String) (kind : HookKind) : Option Hook :=
  (registry.find? (·.1 == (className, kind))).map (·.2)

def unregister (registry : HookRegistry) (className : String) (kind : HookKind) : HookRegistry :=
  registry.filter (·.1 ≠ (className, kind))

/-- Registers a hook in the place of any other. -/
def register (registry : HookRegistry) (className : String) (kind : HookKind) (hook : Hook) :
    HookRegistry :=
  ((className, kind), hook) :: unregister registry className kind

theorem get?_register_self (registry : HookRegistry) (className : String) (kind : HookKind)
    (hook : Hook) :
    get? (register registry className kind hook) className kind = some hook := by
  simp [get?, register]

theorem get?_unregister_self (registry : HookRegistry) (className : String) (kind : HookKind) :
    get? (unregister registry className kind) className kind = none := by
  simp [get?, unregister]

end HookRegistry

end DocumentStore
