import DocumentStore.Harness

/-!
A handle on one class: requests through a harness whose responses are decoded to records.
-/

namespace DocumentStore

structure Handle (σ : Type) where
  backend : Backend σ
  className : String

namespace Handle

variable {σ : Type}

/-- What an operation of the handle gives: a decoded answer or a fault, and the harness
afterwards. -/
abbrev Answer (σ α : Type) := Option (Except Fault α × Harness σ)

def ask {α : Type} (handle : Handle σ) (operation : Operation) (objectId : Option String)
    (payload : Value) (decode : Response → Except Fault α) (h : Harness σ) : Answer σ α :=
  (h.dispatch handle.backend operation handle.className objectId payload).map fun (outcome, h) =>
    (outcome.bind decode, h)

def found (r : Response) : Except Fault (Option Record) :=
  if r.isNotFound then .ok none else (Record.ofPayload r.body).map some

def results (className : String) (r : Response) : Except Fault (List Record) :=
  match r.body.field? "results" with
  | some (.arr items) => items.mapM Record.ofPayload
  | _ => .error (.document (.withoutResults className))

def counted (className : String) (r : Response) : Except Fault Nat :=
  match r.body.field? "count" with
  | some (.num n) =>
    match n.toNat? with
    | some k => .ok k
    | none => .error (.document (.withoutCount className))
  | _ => .error (.document (.withoutCount className))

def create (handle : Handle σ) (fields : Value) : Harness σ → Answer σ Record :=
  handle.ask .create none fields fun r => Record.ofPayload r.body

def getWith (handle : Handle σ) (objectId : String) (params : Value) :
    Harness σ → Answer σ (Option Record) :=
  handle.ask .read (some objectId) params found

def get (handle : Handle σ) (objectId : String) : Harness σ → Answer σ (Option Record) :=
  handle.getWith objectId .null

def update (handle : Handle σ) (objectId : String) (fields : Value) :
    Harness σ → Answer σ (Option Record) :=
  handle.ask .update (some objectId) fields fun r =>
    (found r).map fun record => record.map (KeyMap.insert · "objectId" (.str objectId))

def delete (handle : Handle σ) (objectId : String) : Harness σ → Answer σ Bool :=
  handle.ask .delete (some objectId) .null fun r => .ok !r.isNotFound

def find (handle : Handle σ) (params : Value) : Harness σ → Answer σ (List Record) :=
  handle.ask .read none params (results handle.className)

def count (handle : Handle σ) (clause : Value) : Harness σ → Answer σ Nat :=
  handle.ask .read none (.obj [("count", .bool true), ("where", clause)]) (counted handle.className)

end Handle

end DocumentStore
