import DocumentStore.Fault

/-!
The settings of a store: the query window and the length of ids.
-/

namespace DocumentStore

structure Settings where
  defaultLimit : Nat := 100
  maxLimit : Nat := 1000
  objectIdLength : Nat := 10
deriving DecidableEq

namespace Settings

/-- The digits of an id to choose from. -/
def longestId : Nat := 32

def fault? (s : Settings) : Option SettingsFault :=
  if s.maxLimit = 0 then some .noRoom
  else if s.maxLimit < s.defaultLimit then some (.defaultExceedsMaximum s.defaultLimit s.maxLimit)
  else if s.objectIdLength < 1 ∨ longestId < s.objectIdLength then some (.idLength s.objectIdLength)
  else none

def Valid (s : Settings) : Prop := s.fault? = none

def validate (s : Settings) : Except Fault Unit :=
  match s.fault? with
  | some reason => .error (.settings reason)
  | none => .ok ()

def pageSize (s : Settings) (requested : Option Nat) : Nat :=
  min (requested.getD s.defaultLimit) s.maxLimit

def natural? : Value → Except Fault Nat
  | .num n => match n.toNat? with
    | some k => .ok k
    | none => .error .unreadable
  | _ => .error .unreadable

def field (fields : Record) (name : String) (default : Nat) : Except Fault Nat :=
  match KeyMap.get? fields name with
  | none => .ok default
  | some v => natural? v

/-- Reads settings from their names, or from a list in the order of declaration; what is missing has
its default. -/
def ofValue : Value → Except Fault Settings
  | .obj fields => do
    let defaultLimit ← field fields "default_limit" ({} : Settings).defaultLimit
    let maxLimit ← field fields "max_limit" ({} : Settings).maxLimit
    let objectIdLength ← field fields "object_id_length" ({} : Settings).objectIdLength
    return ⟨defaultLimit, maxLimit, objectIdLength⟩
  | .arr [] => .ok {}
  | .arr [a] => do return { defaultLimit := ← natural? a }
  | .arr [a, b] => do return { defaultLimit := ← natural? a, maxLimit := ← natural? b }
  | .arr [a, b, c] => do
    return {
      defaultLimit := ← natural? a
      maxLimit := ← natural? b
      objectIdLength := ← natural? c }
  | _ => .error .unreadable

def toValue (s : Settings) : Value :=
  .obj [("default_limit", .num (.ofNat s.defaultLimit)), ("max_limit", .num (.ofNat s.maxLimit)),
    ("object_id_length", .num (.ofNat s.objectIdLength))]

end Settings

end DocumentStore
