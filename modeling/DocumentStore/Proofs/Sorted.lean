import DocumentStore.Proofs.Keeping

/-!
Maps whose names stand in rising order. The operations on maps keep the order, two such maps that
read alike are the same list, and a store that is given such records only keeps no others.
-/

namespace DocumentStore

namespace KeyMap

variable {α : Type} {m m' : KeyMap α}

theorem sorted_pair {key other : String} (h : key < other) (a b : α) :
    Sorted [(key, a), (other, b)] :=
  List.pairwise_pair.mpr h

theorem Sorted.insert (h : Sorted m) (key : String) (a : α) : Sorted (insert m key a) := by
  induction m with
  | nil => exact List.pairwise_singleton _ _
  | cons e m ih =>
    obtain ⟨hhead, htail⟩ := List.pairwise_cons.mp h
    simp only [KeyMap.insert]
    split
    · rename_i he
      subst he
      exact List.pairwise_cons.mpr ⟨hhead, htail⟩
    · rename_i hne
      split
      · rename_i hlt
        refine List.pairwise_cons.mpr ⟨fun e' he' => ?_, h⟩
        rcases List.mem_cons.mp he' with rfl | he'
        · exact hlt
        · exact String.lt_trans hlt (hhead e' he')
      · rename_i hnlt
        have hlt : e.1 < key := Decidable.byContradiction fun hn => hne (String.le_antisymm hnlt hn)
        refine List.pairwise_cons.mpr ⟨fun e' he' => ?_, ih htail⟩
        rcases mem_insert he' with rfl | he'
        · exact hlt
        · exact hhead e' he'

theorem Sorted.erase (h : Sorted m) (key : String) : Sorted (erase m key) :=
  List.Pairwise.filter _ h

theorem Sorted.without (h : Sorted m) (keys : List String) : Sorted (without m keys) :=
  List.Pairwise.filter _ h

theorem Sorted.overlay (h : Sorted m) (top : KeyMap α) : Sorted (overlay m top) := by
  induction top with
  | nil => exact h
  | cons e top ih => exact Sorted.insert ih e.1 e.2

theorem get?_cons_self (e : String × α) (m : KeyMap α) : get? (e :: m) e.1 = some e.2 := if_pos rfl

theorem Sorted.head_le {e : String × α} (h : Sorted (e :: m)) {key : String} {a : α}
    (hg : get? (e :: m) key = some a) :
    e.1 ≤ key := by
  rcases List.mem_cons.mp (mem_of_get? hg) with heq | hm
  · have hkey : key = e.1 := congrArg Prod.fst heq
    exact hkey ▸ String.le_refl key
  · exact String.lt_asymm ((List.pairwise_cons.mp h).1 _ hm)

theorem Sorted.get?_tail {e : String × α} (h : Sorted (e :: m)) (key : String) :
    get? m key = if key = e.1 then none else get? (e :: m) key := by
  split
  · rename_i hk
    rw [get?_eq_none_iff, hk]
    intro hmem
    obtain ⟨e', he', heq⟩ := List.mem_map.mp hmem
    exact absurd ((List.pairwise_cons.mp h).1 e' he') (by rw [heq]; exact String.lt_irrefl _)
  · rename_i hk
    rw [get?, if_neg (Ne.symm hk)]

theorem Sorted.eq_of_get? (h : Sorted m) (h' : Sorted m') (hg : ∀ key, get? m key = get? m' key) :
    m = m' := by
  induction m generalizing m' with
  | nil =>
    cases m' with
    | nil => rfl
    | cons e m' => cases (hg e.1).trans (get?_cons_self e m')
  | cons e m ih =>
    cases m' with
    | nil => cases (hg e.1).symm.trans (get?_cons_self e m)
    | cons e' m' =>
      have hself := (hg e.1).symm.trans (get?_cons_self e m)
      have hself' := (hg e'.1).trans (get?_cons_self e' m')
      have hkey : e.1 = e'.1 := String.le_antisymm (h.head_le hself') (h'.head_le hself)
      have hval : e.2 = e'.2 := by
        rw [hkey, get?_cons_self] at hself
        exact (Option.some.inj hself).symm
      have htail : m = m' := by
        refine ih (List.pairwise_cons.mp h).2 (List.pairwise_cons.mp h').2 fun key => ?_
        rw [h.get?_tail, h'.get?_tail, hkey, hg]
      rw [Prod.ext hkey hval, htail]

theorem Sorted.get?_of_mem (h : Sorted m) {key : String} {a : α} (hm : (key, a) ∈ m) :
    get? m key = some a := by
  induction m with
  | nil => cases hm
  | cons e m ih =>
    obtain ⟨first, b⟩ := e
    obtain ⟨hfirst, hrest⟩ := List.pairwise_cons.mp h
    rcases List.mem_cons.mp hm with heq | hm
    · obtain ⟨rfl, rfl⟩ := Prod.mk.inj heq
      exact if_pos rfl
    · have hne : first ≠ key := String.ne_of_lt (hfirst (key, a) hm)
      exact (if_neg hne).trans (ih hrest hm)

end KeyMap

abbrev SortedRecord := {record : Record // KeyMap.Sorted record}

namespace SortedRecord

def without (record : SortedRecord) (names : List String) : SortedRecord :=
  ⟨KeyMap.without record.1 names, record.2.without names⟩

def overlay (record : SortedRecord) (top : Record) : SortedRecord :=
  ⟨KeyMap.overlay record.1 top, record.2.overlay top⟩

theorem eq_of_get? (record record' : SortedRecord)
    (h : ∀ key, KeyMap.get? record.1 key = KeyMap.get? record'.1 key) : record.1 = record'.1 :=
  record.2.eq_of_get? record'.2 h

end SortedRecord

namespace UpdateOp

theorem sorted_setField {record : Record} (h : KeyMap.Sorted record) (field : String)
    (value : Option Value) :
    KeyMap.Sorted (setField record field value) := by
  cases value with
  | none => exact h.erase field
  | some v => exact h.insert field v

theorem sorted_applyAll {record result : Record} {ops : List (String × UpdateOp)}
    (hs : KeyMap.Sorted record) (h : applyAll record ops = .ok result) : KeyMap.Sorted result := by
  induction ops generalizing record with
  | nil =>
    obtain rfl : record = result := Except.ok.inj h
    exact hs
  | cons e ops ih =>
    simp only [applyAll, bind_eq_ok_iff] at h
    obtain ⟨value, -, h⟩ := h
    exact ih (sorted_setField hs e.1 value) h

end UpdateOp

namespace Draft

theorem sorted_ofNew {fields : Record} {draft : Draft} (hs : KeyMap.Sorted fields)
    (h : ofNew fields = .ok draft) : KeyMap.Sorted draft.record := by
  obtain ⟨ops, literals, he, ha, -⟩ := ofNew_eq_ok h
  exact UpdateOp.sorted_applyAll
    ((hs.without identityFields).sublist (UpdateOp.literals_sublist he)) ha

theorem sorted_ofChanges {stored changes : Record} {draft : Draft} (hs : KeyMap.Sorted stored)
    (h : ofChanges stored changes = .ok draft) : KeyMap.Sorted draft.record := by
  obtain ⟨ops, literals, -, ha, -⟩ := ofChanges_eq_ok h
  exact UpdateOp.sorted_applyAll (hs.overlay _) ha

end Draft

/-- So the records of a run are sorted where the payloads and what the hooks answer are. -/
theorem Record.kept_sorted : Record.Kept KeyMap.Sorted where
  nil := List.Pairwise.nil
  ofNew := Draft.sorted_ofNew
  ofChanges hs _ := Draft.sorted_ofChanges hs
  stamped field text hs := hs.insert field (.str text)
  carried hs _ _ := hs.insert _ _
  erased field hs := hs.erase field

end DocumentStore
