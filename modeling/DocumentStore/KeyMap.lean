/-!
Finite maps from names, kept as lists of pairs in the order of the names. The first pair of a name
counts, so the laws below hold of every list, in order or not.
-/

namespace DocumentStore

abbrev KeyMap (α : Type) := List (String × α)

namespace KeyMap

variable {α : Type}

def get? : KeyMap α → String → Option α
  | [], _ => none
  | (k, a) :: m, key => if k = key then some a else get? m key

def contains (m : KeyMap α) (key : String) : Bool := (get? m key).isSome

/-- Sets the value of a name: in place when it is there, else before the first greater name. -/
def insert : KeyMap α → String → α → KeyMap α
  | [], key, a => [(key, a)]
  | (k, b) :: m, key, a =>
    if k = key then (key, a) :: m
    else if key < k then (key, a) :: (k, b) :: m
    else (k, b) :: insert m key a

def erase (m : KeyMap α) (key : String) : KeyMap α := m.filter (·.1 ≠ key)

def without (m : KeyMap α) (keys : List String) : KeyMap α := m.filter fun e => !keys.contains e.1

def overlay (base top : KeyMap α) : KeyMap α := top.foldr (fun e m => insert m e.1 e.2) base

/-- The map of a list of pairs in any order; a later pair wins over an earlier one of the same
name. -/
def ofList (pairs : List (String × α)) : KeyMap α := pairs.foldl (fun m e => insert m e.1 e.2) []

def keys (m : KeyMap α) : List String := m.map (·.1)

def Sorted (m : KeyMap α) : Prop := m.Pairwise (·.1 < ·.1)

theorem get?_insert_self (m : KeyMap α) (key : String) (a : α) :
    get? (insert m key a) key = some a := by
  induction m with
  | nil => simp [insert, get?]
  | cons e m ih =>
    simp only [insert]
    split
    · simp [get?]
    · split
      · simp [get?]
      · rename_i hne _
        simp [get?, hne, ih]

theorem get?_insert_of_ne (m : KeyMap α) {key other : String} (a : α) (h : other ≠ key) :
    get? (insert m key a) other = get? m other := by
  induction m with
  | nil => simp [insert, get?, Ne.symm h]
  | cons e m ih =>
    simp only [insert]
    split
    · rename_i he
      subst he
      simp [get?, Ne.symm h]
    · split
      · simp [get?, Ne.symm h]
      · simp [get?, ih]

theorem get?_erase_self (m : KeyMap α) (key : String) : get? (erase m key) key = none := by
  induction m with
  | nil => rfl
  | cons e m ih =>
    simp only [erase, ne_eq, decide_not] at ih ⊢
    by_cases h : e.1 = key <;> simp [h, get?, ih]

theorem get?_erase_of_ne (m : KeyMap α) {key other : String} (h : other ≠ key) :
    get? (erase m key) other = get? m other := by
  induction m with
  | nil => rfl
  | cons e m ih =>
    simp only [erase, ne_eq, decide_not] at ih ⊢
    by_cases he : e.1 = key
    · simp [he, get?, Ne.symm h, ih]
    · simp [he, get?, ih]

theorem get?_overlay (base top : KeyMap α) (key : String) :
    get? (overlay base top) key = (get? top key).or (get? base key) := by
  induction top with
  | nil => simp [overlay, get?]
  | cons e top ih =>
    simp only [overlay, List.foldr_cons] at ih ⊢
    by_cases h : e.1 = key
    · subst h
      simp [get?_insert_self, get?]
    · rw [get?_insert_of_ne _ _ (Ne.symm h), ih]
      simp [get?, h]

end KeyMap

end DocumentStore
