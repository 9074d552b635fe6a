import DocumentStore.Value

/-!
The records of one class by their ids, in the order of creation. No id stands twice.
-/

namespace DocumentStore

structure Collection where
  entries : List (String × Record)
  distinct : (entries.map (·.1)).Nodup

namespace Collection

def empty : Collection := ⟨[], List.nodup_nil⟩

instance : Inhabited Collection := ⟨empty⟩

def toList (c : Collection) : List (String × Record) := c.entries

def ids (c : Collection) : List String := c.entries.map (·.1)

def records (c : Collection) : List Record := c.entries.map (·.2)

def get? (c : Collection) (id : String) : Option Record := (c.entries.find? (·.1 == id)).map (·.2)

def contains (c : Collection) (id : String) : Bool := c.ids.contains id

def size (c : Collection) : Nat := c.entries.length

def isEmpty (c : Collection) : Bool := c.entries.isEmpty

def replaceIn (id : String) (record : Record) (entries : List (String × Record)) :
    List (String × Record) :=
  entries.map fun e => if e.1 = id then (id, record) else e

theorem map_fst_replaceIn (id : String) (record : Record) (entries : List (String × Record)) :
    (replaceIn id record entries).map (·.1) = entries.map (·.1) := by
  simp only [replaceIn, List.map_map]
  apply List.map_congr_left
  intro e _
  by_cases h : e.1 = id <;> simp [h]

/-- Stores a record under its id: in the place of the one it has, else at the end. -/
def insert (c : Collection) (id : String) (record : Record) : Collection :=
  if h : id ∈ c.ids then
    ⟨replaceIn id record c.entries, by rw [map_fst_replaceIn]; exact c.distinct⟩
  else
    ⟨c.entries ++ [(id, record)], by
      have hd := c.distinct
      simp only [ids, List.mem_map, not_exists, not_and] at h
      simp only [List.map_append, List.map_cons, List.map_nil, List.nodup_append, List.nodup_cons,
        List.not_mem_nil, not_false_iff, List.nodup_nil, and_self, true_and, hd, List.mem_map,
        List.mem_singleton, forall_eq]
      rintro a ⟨e, he, rfl⟩
      exact h e he⟩

def erase (c : Collection) (id : String) : Collection :=
  ⟨c.entries.filter (·.1 ≠ id), c.distinct.sublist ((List.filter_sublist (l := c.entries)).map _)⟩

end Collection

end DocumentStore
