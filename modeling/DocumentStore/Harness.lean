import DocumentStore.Engine.Serving

/-!
The harness that a test suite installs in the place of the hosted service, over any backend.
-/

namespace DocumentStore

/-- What answers requests, with a state of type `σ`. -/
structure Backend (σ : Type) where
  serve : Request → σ → Option (Outcome × σ)
  clear : σ → σ
  register : String → HookKind → Hook → σ → σ
  unregister : String → HookKind → σ → σ

namespace Backend

def engine (depth : Nat) : Backend Engine where
  serve := Engine.serve depth
  clear := Engine.clear
  register className kind hook e := e.register className kind hook
  unregister className kind e := e.unregister className kind

def canned (response : Response) : Backend (List Request) where
  serve request seen := some (.ok response, seen ++ [request])
  clear := id
  register _ _ _ := id
  unregister _ _ := id

end Backend

/-- A backend's state, and whether it answers. -/
structure Harness (σ : Type) where
  state : σ
  installed : Bool := false

namespace Harness

variable {σ : Type}

def install (h : Harness σ) : Harness σ := { h with installed := true }

def uninstall (h : Harness σ) : Harness σ := { h with installed := false }

def reset (backend : Backend σ) (h : Harness σ) : Harness σ :=
  { h with state := backend.clear h.state }

def registerHook (backend : Backend σ) (className : String) (kind : HookKind) (hook : Hook)
    (h : Harness σ) : Harness σ :=
  { h with state := backend.register className kind hook h.state }

def unregisterHook (backend : Backend σ) (className : String) (kind : HookKind) (h : Harness σ) :
    Harness σ :=
  { h with state := backend.unregister className kind h.state }

def send (backend : Backend σ) (request : Request) (h : Harness σ) : Option (Outcome × Harness σ) :=
  if h.installed then
    (backend.serve request h.state).map fun (outcome, state) => (outcome, { h with state := state })
  else some (.error .notInstalled, h)

def dispatch (backend : Backend σ) (operation : Operation) (className : String)
    (objectId : Option String) (payload : Value) (h : Harness σ) : Option (Outcome × Harness σ) :=
  h.send backend ⟨operation, className, objectId, payload⟩

end Harness

end DocumentStore
