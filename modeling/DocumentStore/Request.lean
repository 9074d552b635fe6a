import DocumentStore.Value

/-!
Requests to a document backend, and its responses: a status and a body.
-/

namespace DocumentStore

inductive Operation where
  | create
  | read
  | update
  | delete
deriving DecidableEq

def Operation.name : Operation → String
  | .create => "Create"
  | .read => "Read"
  | .update => "Update"
  | .delete => "Delete"

structure Request where
  operation : Operation
  className : String
  objectId : Option String
  payload : Value

namespace Request

def create (className : String) (fields : Value) : Request := ⟨.create, className, none, fields⟩

def get (className objectId : String) : Request := ⟨.read, className, some objectId, .null⟩

def query (className : String) (params : Value) : Request := ⟨.read, className, none, params⟩

def update (className objectId : String) (fields : Value) : Request :=
  ⟨.update, className, some objectId, fields⟩

def delete (className objectId : String) : Request := ⟨.delete, className, some objectId, .null⟩

end Request

structure Response where
  status : Nat
  body : Value

namespace Response

def ok (body : Value) : Response := ⟨200, body⟩

def created (body : Value) : Response := ⟨201, body⟩

def notFound : Response :=
  ⟨404, .obj [("code", .num (.int 101 (by decide))), ("error", .str "Object not found.")]⟩

def isSuccess (r : Response) : Bool := 200 ≤ r.status && r.status < 300

def isNotFound (r : Response) : Bool := r.status == 404

end Response

end DocumentStore
