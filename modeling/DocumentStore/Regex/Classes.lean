import DocumentStore.Text.CharSet

/-!
The classes of characters that patterns name. All of them are classes of ASCII.
-/

namespace DocumentStore.CharSet

def digit : CharSet := [(48, 57)]
def space : CharSet := [(9, 13), (32, 32)]
def word : CharSet := [(48, 57), (65, 90), (95, 95), (97, 122)]

def named? (name : String) : Option CharSet :=
  match name with
  | "alnum" => some [(48, 57), (65, 90), (97, 122)]
  | "alpha" => some [(65, 90), (97, 122)]
  | "ascii" => some [(0, 127)]
  | "blank" => some [(9, 9), (32, 32)]
  | "cntrl" => some [(0, 31), (127, 127)]
  | "digit" => some digit
  | "graph" => some [(33, 126)]
  | "lower" => some [(97, 122)]
  | "print" => some [(32, 126)]
  | "punct" => some [(33, 47), (58, 64), (91, 96), (123, 126)]
  | "space" => some space
  | "upper" => some [(65, 90)]
  | "word" => some word
  | "xdigit" => some [(48, 57), (65, 70), (97, 102)]
  | _ => none

end DocumentStore.CharSet
