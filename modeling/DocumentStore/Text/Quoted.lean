import DocumentStore.Text.Hex
import DocumentStore.Text.Unseen

/-!
Texts in quotes, as they appear inside an error's text: what cannot be seen is written as an escape.
-/

namespace DocumentStore.Text

def quotedChar (c : Char) : List Char :=
  if c = '"' ∨ c = '\\' then ['\\', c]
  else if c = '\n' then ['\\', 'n']
  else if c = '\t' then ['\\', 't']
  else if c = '\r' then ['\\', 'r']
  else if c.toNat = 0 then ['\\', '0']
  else if CharSet.unseen.contains c then ['\\', 'u', '\x7b'] ++ hexChars c.toNat ++ ['\x7d']
  else [c]

def quoted (s : String) : String := .ofList ('"' :: s.toList.flatMap quotedChar ++ ['"'])

end DocumentStore.Text
