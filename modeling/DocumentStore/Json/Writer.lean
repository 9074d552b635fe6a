import DocumentStore.Value
import DocumentStore.Text.Quoted

/-!
Writing values as compact JSON: no spaces, and only the escapes that the format demands.
-/

namespace DocumentStore.Json

def writtenChar (c : Char) : List Char :=
  if c = '"' ∨ c = '\\' then ['\\', c]
  else if c = '\x08' then ['\\', 'b']
  else if c = '\t' then ['\\', 't']
  else if c = '\n' then ['\\', 'n']
  else if c = '\x0c' then ['\\', 'f']
  else if c = '\r' then ['\\', 'r']
  else if c.toNat < 0x10 then ['\\', 'u', '0', '0', '0'] ++ Text.hexChars c.toNat
  else if c.toNat < 0x20 then ['\\', 'u', '0', '0'] ++ Text.hexChars c.toNat
  else [c]

def writtenText (s : String) : String := .ofList ('"' :: s.toList.flatMap writtenChar ++ ['"'])

mutual

def written : Value → String
  | .null => "null"
  | .bool b => if b then "true" else "false"
  | .num n => n.text
  | .str s => writtenText s
  | .arr items => "[" ++ ",".intercalate (writtenItems items) ++ "]"
  | .obj fields => "\x7b" ++ ",".intercalate (writtenFields fields) ++ "\x7d"

def writtenItems : List Value → List String
  | [] => []
  | v :: vs => written v :: writtenItems vs

def writtenFields : List (String × Value) → List String
  | [] => []
  | (k, v) :: vs => (writtenText k ++ ":" ++ written v) :: writtenFields vs

end

end DocumentStore.Json
