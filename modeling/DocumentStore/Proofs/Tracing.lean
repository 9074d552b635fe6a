import DocumentStore.Proofs.Including

/-!
Includes that remember what they fetch. A traced include does what an include does and marks each
record it puts in with the class that the record is of; without the marks its result is that of the
include.
-/

namespace DocumentStore

namespace KeyMap

variable {α β : Type}

def map (f : α → β) (m : KeyMap α) : KeyMap β := List.map (fun e => (e.1, f e.2)) m

theorem keys_map (f : α → β) (m : KeyMap α) : keys (map f m) = keys m := by
  simp only [keys, map, List.map_map, Function.comp_def]

theorem get?_map (f : α → β) (m : KeyMap α) (key : String) :
    get? (map f m) key = (get? m key).map f := by
  induction m with
  | nil => rfl
  | cons e m ih =>
    simp only [map, List.map_cons, get?] at ih ⊢
    split
    · rfl
    · exact ih

theorem map_insert (f : α → β) (m : KeyMap α) (key : String) (a : α) :
    map f (insert m key a) = insert (map f m) key (f a) := by
  induction m with
  | nil => rfl
  | cons e m ih =>
    simp only [map, List.map_cons, insert] at ih ⊢
    split
    · rfl
    · split
      · rfl
      · rw [List.map_cons, ih]

theorem map_without (f : α → β) (m : KeyMap α) (keys : List String) :
    map f (without m keys) = without (map f m) keys := by
  simp only [map, without, List.filter_map, Function.comp_def]

theorem map_erase (f : α → β) (m : KeyMap α) (key : String) :
    map f (erase m key) = erase (map f m) key := by
  simp only [map, erase, List.filter_map, Function.comp_def]

end KeyMap

/-- A value on its way into a response. -/
inductive Traced where
  | stored (v : Value)
  | list (items : List Traced)
  /-- An object: a record that an include has fetched, with its class, or one that has been
  there. -/
  | object (fetchedFrom : Option String) (fields : List (String × Traced))

namespace Traced

mutual

def erase : Traced → Value
  | .stored v => v
  | .list items => .arr (eraseItems items)
  | .object _ fields => .obj (eraseFields fields)

def eraseItems : List Traced → List Value
  | [] => []
  | t :: ts => erase t :: eraseItems ts

def eraseFields : List (String × Traced) → List (String × Value)
  | [] => []
  | (key, t) :: rest => (key, erase t) :: eraseFields rest

end

theorem eraseItems_eq (items : List Traced) : eraseItems items = items.map erase := by
  induction items with
  | nil => rfl
  | cons t ts ih => rw [eraseItems, ih, List.map_cons]

theorem eraseFields_eq (fields : List (String × Traced)) :
    eraseFields fields = KeyMap.map erase fields := by
  induction fields with
  | nil => rfl
  | cons e rest ih =>
    obtain ⟨key, t⟩ := e
    rw [eraseFields, ih]
    rfl

theorem get?_eraseFields (fields : KeyMap Traced) (key : String) :
    KeyMap.get? (eraseFields fields) key = (KeyMap.get? fields key).map erase := by
  rw [eraseFields_eq, KeyMap.get?_map]

theorem eraseFields_insert (fields : KeyMap Traced) (key : String) (t : Traced) :
    eraseFields (KeyMap.insert fields key t) = KeyMap.insert (eraseFields fields) key t.erase := by
  rw [eraseFields_eq, eraseFields_eq, KeyMap.map_insert]

theorem eraseFields_erase (fields : KeyMap Traced) (key : String) :
    eraseFields (KeyMap.erase fields key) = KeyMap.erase (eraseFields fields) key := by
  rw [eraseFields_eq, eraseFields_eq, KeyMap.map_erase]

theorem eraseFields_without (fields : KeyMap Traced) (keys : List String) :
    eraseFields (KeyMap.without fields keys) = KeyMap.without (eraseFields fields) keys := by
  rw [eraseFields_eq, eraseFields_eq, KeyMap.map_without]

def ofRecord (record : Record) : KeyMap Traced := KeyMap.map .stored record

theorem eraseFields_ofRecord (record : Record) : eraseFields (ofRecord record) = record := by
  rw [eraseFields_eq, ofRecord]
  induction record with
  | nil => rfl
  | cons e rest ih =>
    simp only [KeyMap.map, List.map_cons, erase] at ih ⊢
    rw [ih]

def items? : Traced → Option (List Traced)
  | .stored (.arr items) => some (items.map .stored)
  | .list items => some items
  | _ => none

def opened : Traced → Option String × KeyMap Traced
  | .stored (.obj fields) => (none, ofRecord fields)
  | .object fetchedFrom fields => (fetchedFrom, fields)
  | _ => (none, [])

def referent (t : Traced) (fetched : Record) : Option String × KeyMap Traced :=
  if t.erase.typeTag? = some "Object" then t.opened
  else (t.erase.textField? "className", ofRecord fetched)

def follow (c : Contents) : IncludePath → KeyMap Traced → KeyMap Traced
  | [], record => record
  | segment :: rest, record =>
    match KeyMap.get? record segment with
    | none => record
    | some t =>
      match t.items? with
      | some items =>
        KeyMap.insert record segment <| .list <| items.map fun item =>
          match dereference c item.erase with
          | .record fields =>
            .object (item.referent fields).1 (follow c rest (item.referent fields).2)
          | .missing => .stored .null
          | .nothing => item
      | none =>
        match dereference c t.erase with
        | .record fields =>
          KeyMap.insert record segment
            (.object (t.referent fields).1 (follow c rest (t.referent fields).2))
        | .missing => KeyMap.erase record segment
        | .nothing => record

theorem erase_of_items?_eq_some {t : Traced} {items : List Traced} (h : t.items? = some items) :
    t.erase = .arr (eraseItems items) := by
  cases t with
  | stored v =>
    cases v with
    | arr stored =>
      obtain rfl := Option.some.inj h
      rw [eraseItems_eq, List.map_map]
      exact congrArg Value.arr (List.map_id stored).symm
    | _ => cases h
  | list items' =>
    obtain rfl := Option.some.inj h
    rfl
  | object => cases h

theorem erase_of_items?_eq_none {t : Traced} (h : t.items? = none) (items : List Value) :
    t.erase ≠ .arr items := by
  rintro he
  cases t with
  | stored v =>
    obtain rfl : v = .arr items := he
    cases h
  | list items' => cases h
  | object => cases he

theorem eraseFields_opened {t : Traced} {fields : Record} (h : t.erase = .obj fields) :
    eraseFields t.opened.2 = fields := by
  cases t with
  | stored v =>
    obtain rfl : v = .obj fields := h
    exact eraseFields_ofRecord fields
  | list => cases h
  | object fetchedFrom fields' => exact Value.obj.inj h

variable {c : Contents}

theorem eraseFields_referent {t : Traced} {fields : Record}
    (h : dereference c t.erase = .record fields) :
    eraseFields (t.referent fields).2 = fields := by
  unfold referent
  split
  · rename_i htag
    cases ht : t.erase with
    | obj given =>
      rw [ht] at h htag
      simp only [dereference, htag, beq_self_eq_true, if_true, Referent.record.injEq] at h
      rw [eraseFields_opened ht, h]
    | _ =>
      rw [ht] at htag
      cases htag
  · exact eraseFields_ofRecord fields

def tracedElement (c : Contents) (rest : IncludePath) (item : Traced) : Traced :=
  match dereference c item.erase with
  | .record fields => .object (item.referent fields).1 (follow c rest (item.referent fields).2)
  | .missing => .stored .null
  | .nothing => item

theorem follow_of_items {segment : String} {record : KeyMap Traced} {t : Traced}
    {items : List Traced} (hr : KeyMap.get? record segment = some t) (hi : t.items? = some items)
    (rest : IncludePath) :
    follow c (segment :: rest) record =
      KeyMap.insert record segment (.list (items.map (tracedElement c rest))) := by
  simp only [follow, hr, hi]
  rfl

theorem follow_of_single {segment : String} {record : KeyMap Traced} {t : Traced}
    (hr : KeyMap.get? record segment = some t) (hi : t.items? = none) (rest : IncludePath) :
    follow c (segment :: rest) record =
      match dereference c t.erase with
      | .record fields =>
        KeyMap.insert record segment
          (.object (t.referent fields).1 (follow c rest (t.referent fields).2))
      | .missing => KeyMap.erase record segment
      | .nothing => record := by
  simp only [follow, hr, hi]

/-- Without its marks, a traced include is the include. -/
theorem eraseFields_follow (c : Contents) (path : IncludePath) (record : KeyMap Traced) :
    eraseFields (follow c path record) = includePath c path (eraseFields record) := by
  induction path generalizing record with
  | nil => rfl
  | cons segment rest ih =>
    cases hr : KeyMap.get? record segment with
    | none => rw [follow, hr, includePath, get?_eraseFields, hr, Option.map_none]
    | some t =>
      have herased : KeyMap.get? (eraseFields record) segment = some t.erase := by
        rw [get?_eraseFields, hr, Option.map_some]
      cases hi : t.items? with
      | some items =>
        have helement (item : Traced) :
            (tracedElement c rest item).erase = element c rest item.erase := by
          unfold tracedElement element
          cases hd : dereference c item.erase with
          | record fields => simp only [erase, ih, eraseFields_referent hd]
          | missing => rfl
          | nothing => rfl
        rw [erase_of_items?_eq_some hi] at herased
        rw [follow_of_items hr hi, includePath_arr herased, eraseFields_insert]
        simp only [erase, eraseItems_eq, List.map_map, Function.comp_def, helement]
      | none =>
        rw [follow_of_single hr hi, includePath_other herased (erase_of_items?_eq_none hi)]
        cases hd : dereference c t.erase with
        | record fields => simp only [eraseFields_insert, erase, ih, eraseFields_referent hd]
        | missing => exact eraseFields_erase record segment
        | nothing => rfl

inductive Holds (className : String) (fields : KeyMap Traced) : Traced → Prop where
  | here : Holds className fields (.object (some className) fields)
  | item {items : List Traced} {t : Traced} (mem : t ∈ items) (holds : Holds className fields t) :
      Holds className fields (.list items)
  | field {fetchedFrom : Option String} {key : String} {within : KeyMap Traced} {t : Traced}
      (mem : (key, t) ∈ within)
      (holds : Holds className fields t) : Holds className fields (.object fetchedFrom within)

def Conceals (c : Contents) (t : Traced) : Prop :=
  ∀ className fields, t.Holds className fields → ∀ field, c.Hides className field →
    field ∉ KeyMap.keys fields

def ConcealsAll (c : Contents) (record : KeyMap Traced) : Prop := ∀ e ∈ record, e.2.Conceals c

theorem conceals_stored (v : Value) : Conceals c (.stored v) := fun _ _ h => by cases h

theorem conceals_list {items : List Traced} (h : ∀ t ∈ items, t.Conceals c) :
    Conceals c (.list items) := by
  intro className fields hh
  cases hh with
  | item mem holds => exact h _ mem className fields holds

theorem conceals_object {fetchedFrom : Option String} {fields : KeyMap Traced}
    (hf : ConcealsAll c fields)
    (hk : ∀ className, fetchedFrom = some className → ∀ field, c.Hides className field →
      field ∉ KeyMap.keys fields) :
    Conceals c (.object fetchedFrom fields) := by
  intro className within hh
  cases hh with
  | here => exact hk className rfl
  | field mem holds => exact hf _ mem className within holds

theorem concealsAll_ofRecord (record : Record) : ConcealsAll c (ofRecord record) := by
  intro e he
  obtain ⟨given, -, rfl⟩ := List.mem_map.mp he
  exact conceals_stored given.2

theorem ConcealsAll.insert {record : KeyMap Traced} (h : ConcealsAll c record) {t : Traced}
    (ht : Conceals c t) (key : String) :
    ConcealsAll c (KeyMap.insert record key t) := by
  intro e he
  rcases KeyMap.mem_insert he with rfl | he
  · exact ht
  · exact h e he

theorem ConcealsAll.filter {record : KeyMap Traced} (h : ConcealsAll c record)
    (keep : String × Traced → Bool) :
    ConcealsAll c (record.filter keep) := fun e he => h e (List.mem_filter.mp he).1

theorem ConcealsAll.conceals {record : KeyMap Traced} (h : ConcealsAll c record) {key : String}
    {t : Traced} (ht : KeyMap.get? record key = some t) : Conceals c t :=
  h _ (KeyMap.mem_of_get? ht)

theorem Conceals.of_items {t : Traced} (h : Conceals c t) {items : List Traced}
    (hi : t.items? = some items) {item : Traced} (hm : item ∈ items) : Conceals c item := by
  cases t with
  | stored v =>
    cases v with
    | arr given =>
      obtain rfl := Option.some.inj hi
      obtain ⟨v, -, rfl⟩ := List.mem_map.mp hm
      exact conceals_stored v
    | _ => cases hi
  | list given =>
    obtain rfl := Option.some.inj hi
    exact fun className fields hh => h className fields (.item hm hh)
  | object => cases hi

/-- A record with its mark that hides what it has to, in itself and within. -/
structure Covered (c : Contents) (marked : Option String × KeyMap Traced) : Prop where
  within : ConcealsAll c marked.2
  here : ∀ className, marked.1 = some className → ∀ field, c.Hides className field →
    field ∉ KeyMap.keys marked.2

theorem covered_opened {t : Traced} (h : Conceals c t) : Covered c t.opened := by
  have plain (record : Record) : Covered c (none, ofRecord record) :=
    ⟨concealsAll_ofRecord record, nofun⟩
  cases t with
  | stored v =>
    cases v with
    | obj fields => exact plain fields
    | _ => exact plain []
  | list => exact plain []
  | object fetchedFrom fields =>
    refine ⟨fun e he className within hh => h className within (.field he hh), ?_⟩
    rintro className rfl
    exact h className fields .here

theorem exists_fetch_of_dereference {v : Value} {fields : Record}
    (h : dereference c v = .record fields) (ht : v.typeTag? ≠ some "Object") :
    ∃ className objectId stored, v.textField? "className" = some className ∧
      c.fetch className objectId = some stored ∧ fields = expanded c className stored := by
  unfold dereference at h
  split at h
  · rename_i given
    rw [if_neg (by simpa using ht)] at h
    cases hp : Pointer.ofValue? (.obj given) with
    | none => simp [hp] at h
    | some p =>
      cases hf : c.fetch p.className p.objectId with
      | none => simp [hp, hf] at h
      | some stored =>
        simp only [hp, hf, Referent.record.injEq] at h
        refine ⟨p.className, p.objectId, stored, ?_, hf, h.symm⟩
        simp only [Pointer.ofValue?, Option.bind_eq_bind, Option.bind_eq_some_iff, Option.pure_def,
          Option.some.injEq] at hp
        obtain ⟨className, hc, objectId, -, rfl⟩ := hp
        exact hc
  · cases h

theorem notMem_keys_expanded {className field : String} (h : c.Hides className field)
    (stored : Record) :
    field ∉ KeyMap.keys (expanded c className stored) := by
  rw [← KeyMap.get?_eq_none_iff, expanded, Contents.get?_visible, if_pos h]

theorem covered_referent {t : Traced} (h : Conceals c t) {fields : Record}
    (hd : dereference c t.erase = .record fields) :
    Covered c (t.referent fields) := by
  unfold referent
  split
  · exact covered_opened h
  · rename_i htag
    obtain ⟨className, objectId, stored, hc, -, rfl⟩ := exists_fetch_of_dereference hd htag
    refine ⟨concealsAll_ofRecord _, fun name hn field hfield => ?_⟩
    obtain rfl : className = name := Option.some.inj (hc.symm.trans hn)
    rw [ofRecord, KeyMap.keys_map]
    exact notMem_keys_expanded hfield stored

theorem keys_follow (c : Contents) (path : IncludePath) (record : KeyMap Traced) {key : String}
    (h : key ∈ KeyMap.keys (follow c path record)) : key ∈ KeyMap.keys record := by
  cases path with
  | nil => exact h
  | cons segment rest =>
    have inserted {t : Traced} (x : Traced) (hr : KeyMap.get? record segment = some t)
        (hk : key ∈ KeyMap.keys (KeyMap.insert record segment x)) : key ∈ KeyMap.keys record := by
      rcases (KeyMap.mem_keys_insert record segment key x).mp hk with rfl | hk
      · exact (KeyMap.mem_keys_iff record key).mpr ⟨t, hr⟩
      · exact hk
    cases hr : KeyMap.get? record segment with
    | none =>
      rw [follow, hr] at h
      exact h
    | some t =>
      cases hi : t.items? with
      | some items =>
        rw [follow_of_items hr hi] at h
        exact inserted _ hr h
      | none =>
        rw [follow_of_single hr hi] at h
        split at h
        · exact inserted _ hr h
        · obtain ⟨e, he, rfl⟩ := List.mem_map.mp h
          exact List.mem_map_of_mem (List.mem_filter.mp he).1
        · exact h

theorem Covered.object {marked : Option String × KeyMap Traced} (h : Covered c marked)
    {rest : IncludePath} (hrest : ConcealsAll c (follow c rest marked.2)) :
    Conceals c (.object marked.1 (follow c rest marked.2)) :=
  conceals_object hrest fun className hn field hfield hk =>
    h.here className hn field hfield (keys_follow c rest marked.2 hk)

/-- The induction is on the path: what the rest of it does to a record put in keeps that record
covered. -/
theorem concealsAll_follow (c : Contents) (path : IncludePath) {record : KeyMap Traced}
    (h : ConcealsAll c record) :
    ConcealsAll c (follow c path record) := by
  induction path generalizing record with
  | nil => exact h
  | cons segment rest ih =>
    have entered {t : Traced} (ht : Conceals c t) {fields : Record}
        (hd : dereference c t.erase = .record fields) :
        Conceals c (.object (t.referent fields).1 (follow c rest (t.referent fields).2)) :=
      (covered_referent ht hd).object (ih (covered_referent ht hd).within)
    cases hr : KeyMap.get? record segment with
    | none =>
      rw [follow, hr]
      exact h
    | some t =>
      have ht := h.conceals hr
      cases hi : t.items? with
      | some items =>
        rw [follow_of_items hr hi]
        refine h.insert (conceals_list fun x hx => ?_) segment
        obtain ⟨item, hm, rfl⟩ := List.mem_map.mp hx
        have hitem := ht.of_items hi hm
        unfold tracedElement
        split
        · rename_i fields hd
          exact entered hitem hd
        · exact conceals_stored .null
        · exact hitem
      | none =>
        rw [follow_of_single hr hi]
        split
        · rename_i fields hd
          exact h.insert (entered ht hd) segment
        · exact h.filter _
        · exact h

end Traced

namespace Contents

def traced (c : Contents) (className : String) (paths : List IncludePath) (stored : Record) :
    KeyMap Traced :=
  KeyMap.without (paths.foldl (fun r path => Traced.follow c path r) (Traced.ofRecord stored))
    (KeyMap.keys (c.mask className))

theorem eraseFields_traced (c : Contents) (className : String) (paths : List IncludePath)
    (stored : Record) :
    Traced.eraseFields (c.traced className paths stored) =
      c.visible className (includeAll c paths stored) := by
  have followed (record : KeyMap Traced) :
      Traced.eraseFields (paths.foldl (fun r path => Traced.follow c path r) record) =
        includeAll c paths (Traced.eraseFields record) := by
    induction paths generalizing record with
    | nil => rfl
    | cons path paths ih =>
      rw [List.foldl_cons, ih, Traced.eraseFields_follow]
      rfl
  rw [traced, Traced.eraseFields_without, followed, Traced.eraseFields_ofRecord]
  rfl

theorem concealsAll_traced (c : Contents) (className : String) (paths : List IncludePath)
    (stored : Record) :
    Traced.ConcealsAll c (c.traced className paths stored) := by
  have followed (record : KeyMap Traced) (h : Traced.ConcealsAll c record) :
      Traced.ConcealsAll c (paths.foldl (fun r path => Traced.follow c path r) record) := by
    induction paths generalizing record with
    | nil => exact h
    | cons path paths ih => exact ih _ (Traced.concealsAll_follow c path h)
  exact (followed _ (Traced.concealsAll_ofRecord stored)).filter _

end Contents

end DocumentStore
