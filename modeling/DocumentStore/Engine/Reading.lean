import DocumentStore.Include
import DocumentStore.Query.Matching
import DocumentStore.Settings

/-!
Reads: one record by its id, or a window of the sorted matches of a query.
-/

namespace DocumentStore

def compareBy : List SortKey → Record → Record → Ordering
  | [], _, _ => .eq
  | key :: keys, a, b =>
    let order := sortCompare (KeyMap.get? a key.field) (KeyMap.get? b key.field)
    (if key.descending then order.swap else order).then (compareBy keys a b)

def sortRecords (keys : List SortKey) (records : List Record) : List Record :=
  records.mergeSort fun a b => compareBy keys a b != .gt

namespace Contents

def readOne (c : Contents) (className objectId : String) (payload : Value) :
    Except Fault Response := do
  let params ← ReadParams.ofPayload payload
  match c.fetch className objectId with
  | none => return .notFound
  | some stored => return .ok (.obj (c.visible className (includeAll c params.includes stored)))

/-- The class that a relation read through `key` points at: that of the first pointer in the owner's
list. -/
def redirected? (c : Contents) (filter : Clause) (key : String) : Option String := do
  let param ← filter.relatedTo?
  if param.textField? "key" = some key then
    let owner ← (param.field? "object").bind Pointer.ofValue?
    match (c.fetch owner.className owner.objectId).bind (KeyMap.get? · key) with
    | some (.arr items) => (items.findSome? Pointer.ofValue?).map (·.className)
    | _ => none
  else none

def targetClass (c : Contents) (className : String) (params : ReadParams) : String :=
  let redirected := do c.redirected? (← params.filter) (← params.redirectKey)
  redirected.getD className

def sortedMatches (c : Contents) (className : String) (params : ReadParams) :
    Except Fault (List Record) :=
  (matching c className (params.filter.getD .matchAll)).map (sortRecords params.sort)

def page (c : Contents) (settings : Settings) (className : String) (params : ReadParams)
    (records : List Record) :
    List Record :=
  ((records.drop (params.offset.getD 0)).take (settings.pageSize params.limit)).map fun record =>
    c.visible className (includeAll c params.includes record)

/-- Answers a query: its window, or the number of all matches; with a redirection also the class it
ran against. -/
def query (c : Contents) (settings : Settings) (className : String) (payload : Value) :
    Except Fault Response := do
  let params ← ReadParams.ofPayload payload
  let target := c.targetClass className params
  let found ← c.sortedMatches target params
  let body : Record :=
    if params.count then [("count", .num (.ofNat found.length)), ("results", .arr [])]
    else [("results", .arr ((c.page settings target params found).map .obj))]
  return .ok (.obj (if params.redirectKey.isSome then ("className", .str target) :: body else body))

end Contents

end DocumentStore
