import DocumentStore.Proofs.Commuting
import Mathlib.Data.List.Nodup

/-!
Forms of a collection. The records of a class can be kept as a list of pairs, and also as a hash map
from ids to records with the ids in the order of creation beside it. Whatever is inserted and
removed, the map and the order stay in step, and nothing that can be read of a collection tells the
forms apart: each shows the pairs of a list without duplicates, in which a record of an old id takes
the place of the one before, a record of a new id goes to the end, and a removal takes the pair out.
-/

namespace DocumentStore.Collection

inductive Change where
  | insert (id : String) (record : Record)
  | remove (id : String)

structure Views where
  get? : String → Option Record
  contains : String → Bool
  size : Nat
  isEmpty : Bool
  removed : String → Option Record
  records : List Record

/-- A form in which records are kept under their ids. -/
structure Form (σ : Type) where
  empty : σ
  insert : σ → String → Record → σ
  remove : σ → String → Option Record × σ
  get? : σ → String → Option Record
  contains : σ → String → Bool
  size : σ → Nat
  isEmpty : σ → Bool
  records : σ → List Record

namespace Form

variable {σ τ : Type}

def views (f : Form σ) (s : σ) : Views where
  get? := f.get? s
  contains := f.contains s
  size := f.size s
  isEmpty := f.isEmpty s
  removed id := (f.remove s id).1
  records := f.records s

def change (f : Form σ) (s : σ) : Change → σ
  | .insert id record => f.insert s id record
  | .remove id => (f.remove s id).2

def after (f : Form σ) (changes : List Change) : σ := changes.foldl f.change f.empty

/-- States of two forms that are related stay so under the same changes, and show the same. -/
structure Simulates (f : Form σ) (g : Form τ) (related : σ → τ → Prop) : Prop where
  empty : related f.empty g.empty
  insert : ∀ {s t}, related s t → ∀ id record, related (f.insert s id record) (g.insert t id record)
  remove : ∀ {s t}, related s t → ∀ id, related (f.remove s id).2 (g.remove t id).2
  views : ∀ {s t}, related s t → f.views s = g.views t

namespace Simulates

variable {f : Form σ} {g : Form τ} {related : σ → τ → Prop}

theorem change (h : f.Simulates g related) {s : σ} {t : τ} (hr : related s t) (change : Change) :
    related (f.change s change) (g.change t change) := by
  cases change with
  | insert id record => exact h.insert hr id record
  | remove id => exact h.remove hr id

theorem after (h : f.Simulates g related) (changes : List Change) :
    related (f.after changes) (g.after changes) :=
  List.foldl_rel h.empty fun change _ _ _ hr => h.change hr change

theorem views_after (h : f.Simulates g related) (changes : List Change) :
    f.views (f.after changes) = g.views (g.after changes) :=
  h.views (h.after changes)

end Simulates

end Form

/-! Pairs of an id and a record, as they stand in a list. -/

abbrev Pairs := List (String × Record)

namespace Pairs

def put (id : String) (record : Record) : Pairs → Pairs
  | [] => [(id, record)]
  | e :: pairs => if e.1 = id then (id, record) :: pairs else e :: put id record pairs

def cut (id : String) (pairs : Pairs) : Pairs := pairs.eraseP (·.1 = id)

variable {id : String} {pairs : Pairs}

theorem put_of_notMem (record : Record) (h : id ∉ pairs.map (·.1)) :
    put id record pairs = pairs ++ [(id, record)] := by
  induction pairs with
  | nil => rfl
  | cons e pairs ih =>
    rw [List.map_cons, List.mem_cons, not_or] at h
    rw [put, if_neg (Ne.symm h.1), ih h.2, List.cons_append]

theorem replaceIn_of_notMem (record : Record) (h : id ∉ pairs.map (·.1)) :
    replaceIn id record pairs = pairs := by
  have hkept : ∀ e ∈ pairs, (if e.1 = id then (id, record) else e) = e := by
    intro e he
    exact if_neg fun heq => h (List.mem_map.mpr ⟨e, he, heq⟩)
  rw [replaceIn, List.map_congr_left hkept, List.map_id']

theorem filter_of_notMem (h : id ∉ pairs.map (·.1)) : pairs.filter (·.1 ≠ id) = pairs :=
  List.filter_eq_self.mpr fun e he => decide_eq_true fun heq => h (List.mem_map.mpr ⟨e, he, heq⟩)

theorem put_of_mem (record : Record) (hd : (pairs.map (·.1)).Nodup) (h : id ∈ pairs.map (·.1)) :
    put id record pairs = replaceIn id record pairs := by
  induction pairs with
  | nil => cases h
  | cons e pairs ih =>
    obtain ⟨hfirst, hrest⟩ := List.nodup_cons.mp hd
    by_cases he : e.1 = id
    -- No later pair has the id, so that all pairs of the id are this one.
    · have hfresh : id ∉ pairs.map (·.1) := he ▸ hfirst
      rw [put, if_pos he, replaceIn, List.map_cons, if_pos he, ← replaceIn,
        replaceIn_of_notMem record hfresh]
    · have htail : id ∈ pairs.map (·.1) := (List.mem_cons.mp h).resolve_left (Ne.symm he)
      rw [put, if_neg he, replaceIn, List.map_cons, if_neg he, ← replaceIn, ih hrest htail]

theorem cut_eq_filter (id : String) (hd : (pairs.map (·.1)).Nodup) :
    cut id pairs = pairs.filter (·.1 ≠ id) := by
  induction pairs with
  | nil => rfl
  | cons e pairs ih =>
    obtain ⟨hfirst, hrest⟩ := List.nodup_cons.mp hd
    by_cases he : e.1 = id
    · have hfresh : id ∉ pairs.map (·.1) := he ▸ hfirst
      rw [cut, List.eraseP_cons_of_pos (by simpa using he),
        List.filter_cons_of_neg (by simpa using he), filter_of_notMem hfresh]
    · rw [cut, List.eraseP_cons_of_neg (by simpa using he),
        List.filter_cons_of_pos (by simpa using he), ← ih hrest, cut]

end Pairs

def Form.plain : Form Pairs where
  empty := []
  insert pairs id record := Pairs.put id record pairs
  remove pairs id := (KeyMap.get? pairs id, Pairs.cut id pairs)
  get? := KeyMap.get?
  contains := KeyMap.contains
  size := List.length
  isEmpty := List.isEmpty
  records pairs := pairs.map (·.2)

def Form.listed : Form Collection where
  empty := Collection.empty
  insert := Collection.insert
  remove c id := (c.get? id, c.erase id)
  get? := Collection.get?
  contains := Collection.contains
  size := Collection.size
  isEmpty := Collection.isEmpty
  records := Collection.records

theorem entries_insert_eq_put (c : Collection) (id : String) (record : Record) :
    (c.insert id record).entries = Pairs.put id record c.entries := by
  unfold insert
  split
  · rename_i h
    exact (Pairs.put_of_mem record c.distinct h).symm
  · rename_i h
    exact (Pairs.put_of_notMem record h).symm

theorem entries_erase_eq_cut (c : Collection) (id : String) :
    (c.erase id).entries = Pairs.cut id c.entries :=
  (Pairs.cut_eq_filter id c.distinct).symm

theorem contains_eq (c : Collection) (id : String) : c.contains id = (c.get? id).isSome := by
  rw [Bool.eq_iff_iff, contains, List.contains_iff_mem, mem_ids_iff, Option.isSome_iff_exists]

theorem listed_simulates_plain :
    Form.listed.Simulates Form.plain fun c pairs => c.entries = pairs where
  empty := rfl
  insert := by
    rintro c _ rfl id record
    exact entries_insert_eq_put c id record
  remove := by
    rintro c _ rfl id
    exact entries_erase_eq_cut c id
  views := by
    rintro c _ rfl
    have hget : c.get? = KeyMap.get? c.entries := funext c.get?_eq
    have hcontains : c.contains = KeyMap.contains c.entries := by
      funext id
      rw [contains_eq, hget, KeyMap.contains]
    simp only [Form.views, Form.listed, Form.plain, hget, hcontains]
    rfl

/-- A hash map from ids to records, and the ids in the order of creation. -/
structure Indexed where
  index : Std.HashMap String Record := ∅
  order : List String := []

namespace Indexed

def insert (x : Indexed) (id : String) (record : Record) : Indexed where
  index := x.index.insert id record
  order := if x.index.contains id then x.order else x.order ++ [id]

def remove (x : Indexed) (id : String) : Option Record × Indexed :=
  match x.index[id]? with
  | none => (none, x)
  | some record => (some record, { index := x.index.erase id, order := x.order.filter (· ≠ id) })

def records (x : Indexed) : List Record := x.order.filterMap fun id => x.index[id]?

end Indexed

def Form.indexed : Form Indexed where
  empty := {}
  insert := Indexed.insert
  remove := Indexed.remove
  get? x id := x.index[id]?
  contains x id := x.index.contains id
  size x := x.index.size
  isEmpty x := x.index.isEmpty
  records := Indexed.records

theorem size_eq_length_ids (c : Collection) : c.size = c.ids.length := (List.length_map _).symm

theorem erase_of_notMem {c : Collection} {id : String} (h : id ∉ c.ids) : c.erase id = c :=
  eq_of_entries (Pairs.filter_of_notMem h)

namespace Indexed

/-- The index has the records of a collection, as many as there are, and the order its ids. -/
structure InStep (x : Indexed) (c : Collection) : Prop where
  order : x.order = c.ids
  index : ∀ id, x.index[id]? = c.get? id
  size : x.index.size = c.size

variable {x : Indexed} {c : Collection}

theorem inStep_empty : InStep {} Collection.empty where
  order := rfl
  index _ := Std.HashMap.getElem?_empty
  size := Std.HashMap.size_empty

namespace InStep

theorem mem_iff (h : InStep x c) (id : String) : id ∈ x.index ↔ id ∈ c.ids := by
  rw [Std.HashMap.mem_iff_isSome_getElem?, h.index, mem_ids_iff, Option.isSome_iff_exists]

theorem insert (h : InStep x c) (id : String) (record : Record) :
    InStep (x.insert id record) (c.insert id record) where
  order := by
    by_cases hm : id ∈ c.ids
    · have hx : x.index.contains id = true := (h.mem_iff id).mpr hm
      rw [Indexed.insert, if_pos hx, ids_insert_of_mem record hm, h.order]
    · have hx : ¬ x.index.contains id = true := fun hx => hm ((h.mem_iff id).mp hx)
      rw [Indexed.insert, if_neg hx, ids_insert_of_notMem record hm, h.order]
  index other := by
    simp only [Indexed.insert, Std.HashMap.getElem?_insert, get?_insert, h.index, beq_iff_eq,
      @eq_comm _ other id]
  size := by
    simp only [Indexed.insert, Std.HashMap.size_insert, h.mem_iff, h.size, size_eq_length_ids]
    by_cases hm : id ∈ c.ids
    · rw [if_pos hm, ids_insert_of_mem record hm]
    · rw [if_neg hm, ids_insert_of_notMem record hm, List.length_append, List.length_singleton]

theorem remove (h : InStep x c) (id : String) : InStep (x.remove id).2 (c.erase id) := by
  unfold Indexed.remove
  cases hx : x.index[id]? with
  | none =>
    have hm : id ∉ c.ids := by
      rw [mem_ids_iff, ← h.index, hx]
      rintro ⟨_, hsome⟩
      cases hsome
    rw [erase_of_notMem hm]
    exact h
  | some record =>
    have hm : id ∈ c.ids := (mem_ids_iff c id).mpr ⟨record, (h.index id).symm.trans hx⟩
    refine ⟨?_, fun other => ?_, ?_⟩
    · rw [ids_erase, h.order]
    · simp only [Std.HashMap.getElem?_erase, get?_erase, h.index, beq_iff_eq, @eq_comm _ other id]
    · have hlength := length_ids_erase hm
      simp only [Std.HashMap.size_erase, h.mem_iff, hm, if_true, h.size,
        size_eq_length_ids, ids_erase]
      omega

theorem removed (h : InStep x c) (id : String) : (x.remove id).1 = c.get? id := by
  rw [← h.index, Indexed.remove]
  cases x.index[id]? <;> rfl

theorem records (h : InStep x c) : x.records = c.records := by
  calc x.records = c.ids.filterMap c.get? := by rw [Indexed.records, h.order, funext h.index]
    _ = (c.ids.map c.get?).filterMap id := by rw [List.filterMap_map, Function.id_comp]
    _ = c.records := by
      rw [← map_some_records, List.filterMap_map, Function.id_comp, List.filterMap_some]

end InStep

end Indexed

theorem indexed_simulates_listed : Form.indexed.Simulates Form.listed Indexed.InStep where
  empty := Indexed.inStep_empty
  insert h := h.insert
  remove h := h.remove
  views := by
    intro x c h
    have hcontains (id : String) : x.index.contains id = c.contains id := by
      rw [contains_eq, ← h.index, Std.HashMap.contains_eq_isSome_getElem?]
    have hempty : x.index.isEmpty = c.isEmpty := by
      rw [Bool.eq_iff_iff, Std.HashMap.isEmpty_eq_size_eq_zero, beq_iff_eq, h.size]
      exact List.isEmpty_iff_length_eq_zero.symm
    simp only [Form.views, Form.indexed, Form.listed, h.index, h.size, h.removed, h.records,
      hcontains, hempty]

/--
After any changes of an empty collection, repeated ones and ones without effect among them, no id
stands twice among the pairs, the order of an index lists just their ids, and all that can be read
of a collection, with an index or as classes have it, is what can be read of the pairs.
-/
theorem forms_show_pairs (changes : List Change) :
    ((Form.plain.after changes).map (·.1)).Nodup ∧
      (Form.indexed.after changes).order = (Form.plain.after changes).map (·.1) ∧
      Form.indexed.views (Form.indexed.after changes) =
        Form.plain.views (Form.plain.after changes) ∧
      (Form.listed.after changes).toList = Form.plain.after changes ∧
      Form.listed.views (Form.listed.after changes) =
        Form.plain.views (Form.plain.after changes) := by
  have hentries : (Form.listed.after changes).entries = Form.plain.after changes :=
    listed_simulates_plain.after changes
  have hstep := indexed_simulates_listed.after changes
  have hlisted := listed_simulates_plain.views_after changes
  have hindexed := indexed_simulates_listed.views_after changes
  refine ⟨?_, ?_, hindexed.trans hlisted, hentries, hlisted⟩
  · exact hentries ▸ (Form.listed.after changes).distinct
  · exact hentries ▸ hstep.order

example :
    (Form.listed.after [.insert "c" [], .insert "a" [], .insert "b" [],
      .insert "c" [("price", .null)], .remove "a",
      .insert "a" []]).toList = [("c", [("price", .null)]), ("b", []), ("a", [])] :=
  rfl

end DocumentStore.Collection
