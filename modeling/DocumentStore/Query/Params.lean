import DocumentStore.Json.Reader
import DocumentStore.Query.Clause

/-!
The parameters of reads: filter, order, window, include paths, count and redirection.
-/

namespace DocumentStore

structure SortKey where
  field : String
  descending : Bool
deriving DecidableEq

def SortKey.parseOrder (text : String) : List SortKey :=
  (Text.listed text).map fun name =>
    match name.toList with
    | '-' :: field => ⟨.ofList field, true⟩
    | _ => ⟨name, false⟩

abbrev IncludePath := List String

def parseInclude (text : String) : List IncludePath := (Text.listed text).map (Text.split '.')

structure ReadParams where
  filter : Option Clause := none
  includes : List IncludePath := []
  count : Bool := false
  limit : Option Nat := none
  offset : Option Nat := none
  sort : List SortKey := []
  /-- A relation field of the owner in a `$relatedTo`; the read goes to the class it points at. -/
  redirectKey : Option String := none

namespace ReadParams

def encodedDepth : Nat := 127

def isOn : Value → Bool
  | .bool b => b
  | .num n => !n.toDouble.isZero
  | .str s => s == "1" || s == "true"
  | _ => false

/-- Reads a count from a text: ASCII digits, perhaps after a plus sign, within 64 bits. -/
def readCount (text : String) : Option Nat :=
  let digits := match (Text.trim text).toList with
    | '+' :: rest => rest
    | rest => rest
  let n := Number.digitsValue digits
  if digits ≠ [] ∧ digits.all Char.isDigit ∧ n < 2 ^ 64 then some n else none

def window (params : Record) (name : String) : Except Fault (Option Nat) :=
  match present? (KeyMap.get? params name) with
  | none => .ok none
  | some (.num n) => orInvalid n.toNat?
  | some (.str s) => orInvalid (readCount s)
  | some _ => orInvalid none
where
  orInvalid : Option Nat → Except Fault (Option Nat)
    | some n => .ok (some n)
    | none => .error (.query (.window name))

def readFilter (param : Option Value) : Except Fault (Option Clause) :=
  match present? param with
  | none => .ok none
  | some (.str text) =>
    match Json.parse? encodedDepth text with
    | some clause => (Clause.parse clause).map some
    | none => .error .unreadable
  | some clause => (Clause.parse clause).map some

def readIncludes : Option Value → List IncludePath
  | some (.str text) => parseInclude text
  | some (.arr items) => items.flatMap fun v => (v.asText?.map parseInclude).getD []
  | _ => []

def textOf (params : Record) (name : String) : Option String :=
  (KeyMap.get? params name).bind Value.asText?

def ofPayload : Value → Except Fault ReadParams
  | .null => .ok {}
  | .obj params => do
    let filter ← readFilter (KeyMap.get? params "where")
    let limit ← window params "limit"
    let offset ← window params "skip"
    return {
      filter, limit, offset
      includes := readIncludes (KeyMap.get? params "include")
      count := (KeyMap.get? params "count").any isOn
      sort := ((textOf params "order").map SortKey.parseOrder).getD []
      redirectKey := textOf params "redirectClassNameForKey" }
  | v => .error (.query (.paramsNotObject v))

end ReadParams

end DocumentStore
