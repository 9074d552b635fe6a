import DocumentStore.Contents
import DocumentStore.Fault

/-!
What is read of maps, collections and contents after each operation on them.
-/

namespace DocumentStore

theorem bind_eq_ok_iff {α β : Type} {x : Except Fault α} {f : α → Except Fault β} {b : β} :
    (x >>= f) = .ok b ↔ ∃ a, x = .ok a ∧ f a = .ok b := by
  cases x with
  | error fault => exact ⟨nofun, fun ⟨_, h, _⟩ => by cases h⟩
  | ok a => exact ⟨fun h => ⟨a, rfl, h⟩, fun ⟨_, h, hf⟩ => by cases h; exact hf⟩

theorem map_eq_ok_iff {α β : Type} {x : Except Fault α} {f : α → β} {b : β} :
    x.map f = .ok b ↔ ∃ a, x = .ok a ∧ f a = b := by
  cases x with
  | error fault => exact ⟨nofun, fun ⟨_, h, _⟩ => by cases h⟩
  | ok a =>
    exact ⟨fun h => ⟨a, rfl, Except.ok.inj h⟩,
      fun ⟨_, h, hf⟩ => by cases h; exact congrArg Except.ok hf⟩

namespace KeyMap

variable {α : Type}

theorem get?_insert (m : KeyMap α) (key other : String) (a : α) :
    get? (insert m key a) other = if other = key then some a else get? m other := by
  split
  · rename_i h
    rw [h, get?_insert_self]
  · rename_i h
    exact get?_insert_of_ne m a h

theorem get?_erase (m : KeyMap α) (key other : String) :
    get? (erase m key) other = if other = key then none else get? m other := by
  split
  · rename_i h
    rw [h, get?_erase_self]
  · rename_i h
    exact get?_erase_of_ne m h

theorem get?_without (m : KeyMap α) (keys : List String) (key : String) :
    get? (without m keys) key = if key ∈ keys then none else get? m key := by
  induction m with
  | nil => simp [without, get?]
  | cons e m ih =>
    simp only [without] at ih ⊢
    by_cases he : e.1 ∈ keys
    · rw [List.filter_cons_of_neg (by simpa using he), ih, get?]
      by_cases hk : e.1 = key
      · subst hk; simp [he]
      · simp [hk]
    · rw [List.filter_cons_of_pos (by simpa using he), get?, get?, ih]
      by_cases hk : e.1 = key
      · subst hk; simp [he]
      · simp [hk]

theorem get?_eq_none_iff (m : KeyMap α) (key : String) : get? m key = none ↔ key ∉ keys m := by
  induction m with
  | nil => simp [get?, keys]
  | cons e m ih =>
    simp only [keys] at ih
    by_cases h : e.1 = key
    · simp [get?, keys, h]
    · simp [get?, keys, h, Ne.symm h, ih]

theorem mem_keys_iff (m : KeyMap α) (key : String) : key ∈ keys m ↔ ∃ a, get? m key = some a := by
  rw [← Option.ne_none_iff_exists', ne_eq, get?_eq_none_iff, Decidable.not_not]

theorem mem_keys_insert (m : KeyMap α) (key other : String) (a : α) :
    other ∈ keys (insert m key a) ↔ other = key ∨ other ∈ keys m := by
  rw [mem_keys_iff, mem_keys_iff, get?_insert]
  by_cases h : other = key <;> simp [h]

theorem mem_insert {m : KeyMap α} {key : String} {a : α} {e : String × α} (h : e ∈ insert m key a) :
    e = (key, a) ∨ e ∈ m := by
  induction m with
  | nil => exact .inl (List.mem_singleton.mp h)
  | cons e' m ih =>
    simp only [insert] at h
    split at h
    · exact (List.mem_cons.mp h).imp_right (List.mem_cons_of_mem _)
    · split at h
      · exact List.mem_cons.mp h
      · rcases List.mem_cons.mp h with rfl | h
        · exact .inr List.mem_cons_self
        · exact (ih h).imp_right (List.mem_cons_of_mem _)

theorem mem_of_get? {m : KeyMap α} {key : String} {a : α} (h : get? m key = some a) :
    (key, a) ∈ m := by
  induction m with
  | nil => cases h
  | cons e m ih =>
    simp only [get?] at h
    split at h
    · rename_i he
      subst he
      obtain rfl := Option.some.inj h
      exact List.mem_cons_self
    · exact List.mem_cons_of_mem _ (ih h)

theorem insert_insert_self (m : KeyMap α) (key : String) (a b : α) :
    insert (insert m key a) key b = insert m key b := by
  induction m with
  | nil => simp only [insert, if_true]
  | cons e m ih =>
    obtain ⟨k, c⟩ := e
    by_cases hk : k = key
    · simp only [insert, hk, if_true]
    · by_cases hlt : key < k
      · simp only [insert, hk, hlt, if_false, if_true]
      · simp only [insert, hk, hlt, if_false, ih]

theorem get?_append (m m' : KeyMap α) (key : String) :
    get? (m ++ m') key = (get? m key).or (get? m' key) := by
  induction m with
  | nil => rfl
  | cons e m ih => by_cases h : e.1 = key <;> simp [get?, h, ih]

theorem find?_eq_get? (m : KeyMap α) (key : String) :
    (m.find? (·.1 == key)).map (·.2) = get? m key := by
  induction m with
  | nil => rfl
  | cons e m ih =>
    by_cases h : e.1 = key
    · simp [get?, h]
    · rw [List.find?_cons_of_neg (by simpa using h), ih, get?, if_neg h]

end KeyMap

namespace Collection

theorem get?_eq (c : Collection) (id : String) : c.get? id = KeyMap.get? c.entries id :=
  KeyMap.find?_eq_get? c.entries id

theorem mem_ids_iff (c : Collection) (id : String) :
    id ∈ c.ids ↔ ∃ record, c.get? id = some record := by
  simp only [get?_eq]
  exact KeyMap.mem_keys_iff c.entries id

theorem get?_replaceIn (id other : String) (record : Record) (entries : List (String × Record)) :
    KeyMap.get? (replaceIn id record entries) other =
      if other = id ∧ id ∈ KeyMap.keys entries then some record else KeyMap.get? entries other := by
  induction entries with
  | nil => simp [replaceIn, KeyMap.get?, KeyMap.keys]
  | cons e entries ih =>
    simp only [replaceIn, KeyMap.keys, List.map_cons, List.mem_cons, KeyMap.get?] at ih ⊢
    by_cases he : e.1 = id
    · by_cases ho : id = other
      · simp [he, ho]
      · simp [he, ho, Ne.symm ho, ih]
    · by_cases ho : e.1 = other
      · have hne : other ≠ id := ho ▸ he
        simp [ho, hne]
      · have hi : (id = e.1) = False := eq_false (Ne.symm he)
        rw [if_neg he, if_neg ho, if_neg ho, ih]
        exact ite_congr (by rw [hi, false_or]) (fun _ => rfl) (fun _ => rfl)

theorem get?_insert (c : Collection) (id other : String) (record : Record) :
    (c.insert id record).get? other = if other = id then some record else c.get? other := by
  rw [get?_eq, get?_eq]
  unfold insert
  split
  · rename_i h
    have hk : id ∈ KeyMap.keys c.entries := h
    simp only [get?_replaceIn, hk, and_true]
  · rename_i h
    have hn : KeyMap.get? c.entries id = none := (KeyMap.get?_eq_none_iff c.entries id).mpr h
    rw [KeyMap.get?_append]
    by_cases ho : other = id
    · simp [ho, hn, KeyMap.get?]
    · simp [ho, Ne.symm ho, KeyMap.get?]

theorem get?_erase (c : Collection) (id other : String) :
    (c.erase id).get? other = if other = id then none else c.get? other := by
  rw [get?_eq, get?_eq]
  exact KeyMap.get?_erase c.entries id other

end Collection

theorem Mask.mem_keys_addAll (mask : Mask) (fields : List String) (field : String) :
    field ∈ KeyMap.keys (mask.addAll fields) ↔ field ∈ KeyMap.keys mask ∨ field ∈ fields := by
  induction fields generalizing mask with
  | nil => simp [addAll]
  | cons f fields ih =>
    simp only [addAll, List.foldl_cons] at ih ⊢
    rw [ih, KeyMap.mem_keys_insert, List.mem_cons, or_assoc, or_left_comm]

namespace Contents

/-- No response of the class shows the field. -/
def Hides (c : Contents) (className field : String) : Prop := field ∈ KeyMap.keys (c.mask className)

instance (c : Contents) (className field : String) : Decidable (c.Hides className field) :=
  inferInstanceAs (Decidable (_ ∈ _))

theorem collection_setCollection (c : Contents) (className other : String) (records : Collection) :
    (c.setCollection className records).collection other =
      if other = className then records else c.collection other := by
  simp only [collection, collection?, setCollection, KeyMap.get?_insert]
  split <;> rfl

theorem fetch_cases_of_ids_eq {c c' : Contents} {className : String}
    (h : (c.collection className).ids = (c'.collection className).ids) (objectId : String) :
    c.fetch className objectId = none ∧ c'.fetch className objectId = none ∨
    ∃ stored stored', c.fetch className objectId = some stored ∧
      c'.fetch className objectId = some stored' := by
  have hmem : objectId ∈ (c.collection className).ids ↔
      objectId ∈ (c'.collection className).ids := by rw [h]
  rw [Collection.mem_ids_iff, Collection.mem_ids_iff] at hmem
  cases hf : c.fetch className objectId with
  | none =>
    refine .inl ⟨rfl, Option.eq_none_iff_forall_ne_some.mpr fun stored hf' => ?_⟩
    obtain ⟨record, hr⟩ := hmem.mpr ⟨stored, hf'⟩
    cases hf.symm.trans hr
  | some stored =>
    obtain ⟨stored', hf'⟩ := hmem.mp ⟨stored, hf⟩
    exact .inr ⟨stored, stored', rfl, hf'⟩

theorem fetch_insert (c : Contents) (className objectId : String) (record : Record)
    (className' objectId' : String) :
    (c.insert className objectId record).fetch className' objectId' =
      if className' = className ∧ objectId' = objectId then some record
      else c.fetch className' objectId' := by
  simp only [fetch, insert, collection_setCollection]
  by_cases hc : className' = className
  · simp [hc, Collection.get?_insert]
  · simp [hc]

theorem fetch_erase (c : Contents) (className objectId className' objectId' : String) :
    (c.erase className objectId).fetch className' objectId' =
      if className' = className ∧ objectId' = objectId then none
      else c.fetch className' objectId' := by
  simp only [fetch, erase, collection_setCollection]
  by_cases hc : className' = className
  · simp [hc, Collection.get?_erase]
  · simp [hc]

theorem classes_hide (c : Contents) (className : String) (fields : List String) :
    (c.hide className fields).classes = c.classes := by
  unfold hide
  split <;> rfl

theorem fetch_hide (c : Contents) (className : String) (fields : List String)
    (className' objectId' : String) :
    (c.hide className fields).fetch className' objectId' = c.fetch className' objectId' := by
  simp only [fetch, collection, collection?, classes_hide]

theorem hides_hide (c : Contents) (className : String) (fields : List String)
    (className' field : String) :
    (c.hide className fields).Hides className' field ↔
      c.Hides className' field ∨ className' = className ∧ field ∈ fields := by
  unfold hide
  split
  · rename_i he
    simp [List.isEmpty_iff.mp he]
  · simp only [Hides, mask, mask?, setMask, KeyMap.get?_insert]
    by_cases hc : className' = className
    · simp [hc, Mask.mem_keys_addAll]
    · simp [hc]

theorem hides_insert (c : Contents) (className objectId : String) (record : Record)
    (className' field : String) :
    (c.insert className objectId record).Hides className' field ↔ c.Hides className' field :=
  Iff.rfl

theorem hides_erase (c : Contents) (className objectId className' field : String) :
    (c.erase className objectId).Hides className' field ↔ c.Hides className' field := Iff.rfl

theorem get?_visible (c : Contents) (className : String) (record : Record) (field : String) :
    KeyMap.get? (c.visible className record) field =
      if c.Hides className field then none else KeyMap.get? record field :=
  KeyMap.get?_without record _ field

theorem not_hides_empty (className field : String) : ¬ ({} : Contents).Hides className field := by
  simp [Hides, mask, mask?, KeyMap.get?, KeyMap.keys]

end Contents

end DocumentStore
