import DocumentStore.Include
import DocumentStore.Proofs.Contents

/-!
What includes do to a record. Only values in which a record may stand change: a pointer becomes a
stored record of its class, as responses show it, or goes; and what an include has put in grows in
turn.
-/

namespace DocumentStore

mutual

/-- The second value stands where the first stood, and `Shows` holds of all stored records put into
it. -/
inductive Grown (c : Contents) (Shows : String → Record → Record → Prop) :
    Value → Value → Prop where
  | same (v : Value) : Grown c Shows v v
  | missing (fields : Record) : Grown c Shows (.obj fields) .null
  | fetched {fields stored shown : Record} {className objectId : String}
      (fetch : c.fetch className objectId = some stored) (shows : Shows className stored shown)
      (grows : ∀ key, FieldGrown c Shows (KeyMap.get? (expanded c className stored) key)
        (KeyMap.get? shown key)) :
      Grown c Shows (.obj fields) (.obj shown)
  | within {fields shown : Record}
      (grows : ∀ key, FieldGrown c Shows (KeyMap.get? fields key) (KeyMap.get? shown key)) :
      Grown c Shows (.obj fields) (.obj shown)
  | each {items shown : List Value} (length : shown.length = items.length)
      (grows : ∀ i : Nat, FieldGrown c Shows items[i]? shown[i]?) :
      Grown c Shows (.arr items) (.arr shown)

inductive FieldGrown (c : Contents) (Shows : String → Record → Record → Prop) :
    Option Value → Option Value → Prop where
  | absent : FieldGrown c Shows none none
  | dropped (fields : Record) : FieldGrown c Shows (some (.obj fields)) none
  | grown {v w : Value} (grows : Grown c Shows v w) : FieldGrown c Shows (some v) (some w)

end

section Growth

variable {c : Contents} {Shows : String → Record → Record → Prop}

theorem FieldGrown.refl (field : Option Value) : FieldGrown c Shows field field := by
  cases field with
  | none => exact .absent
  | some v => exact .grown (.same v)

theorem FieldGrown.none_left {field : Option Value} (h : FieldGrown c Shows none field) :
    field = none := by
  cases h
  rfl

theorem FieldGrown.of_text {text : String} {field : Option Value}
    (h : FieldGrown c Shows (some (.str text)) field) :
    field = some (.str text) := by
  cases h with
  | grown grows =>
    cases grows
    rfl

theorem FieldGrown.map {field shown : Option Value} (h : FieldGrown c Shows field shown)
    {f : Value → Value} (hf : ∀ v w, Grown c Shows v w → Grown c Shows v (f w)) :
    FieldGrown c Shows field (shown.map f) := by
  cases h with
  | absent => exact .absent
  | dropped fields => exact .dropped fields
  | grown grows => exact .grown (hf _ _ grows)

def RecordGrown (c : Contents) (Shows : String → Record → Record → Prop) (fields shown : Record) :
    Prop :=
  ∀ key, FieldGrown c Shows (KeyMap.get? fields key) (KeyMap.get? shown key)

theorem RecordGrown.refl (fields : Record) : RecordGrown c Shows fields fields := fun _ => .refl _

theorem RecordGrown.exists_grown {fields shown : Record} (h : RecordGrown c Shows fields shown)
    {key : String} {w : Value} (hw : KeyMap.get? shown key = some w) :
    ∃ v, KeyMap.get? fields key = some v ∧ Grown c Shows v w := by
  have hkey := h key
  rw [hw] at hkey
  cases hf : KeyMap.get? fields key with
  | none =>
    rw [hf] at hkey
    cases hkey
  | some v =>
    rw [hf] at hkey
    cases hkey with
    | grown grows => exact ⟨v, rfl, grows⟩

theorem RecordGrown.insert {fields shown : Record} (h : RecordGrown c Shows fields shown)
    {key : String} {v x : Value} (hv : KeyMap.get? fields key = some v) (hx : Grown c Shows v x) :
    RecordGrown c Shows fields (KeyMap.insert shown key x) := by
  intro other
  rw [KeyMap.get?_insert]
  split
  · rename_i hk
    rw [hk, hv]
    exact .grown hx
  · exact h other

theorem RecordGrown.erase {fields shown origin : Record} (h : RecordGrown c Shows fields shown)
    {key : String} (hv : KeyMap.get? fields key = some (.obj origin)) :
    RecordGrown c Shows fields (KeyMap.erase shown key) := by
  intro other
  rw [KeyMap.get?_erase]
  split
  · rename_i hk
    rw [hk, hv]
    exact .dropped origin
  · exact h other

theorem Grown.exists_obj {v : Value} {fields : Record} (h : Grown c Shows v (.obj fields)) :
    ∃ given, v = .obj given := by
  cases h with
  | same => exact ⟨fields, rfl⟩
  | fetched => exact ⟨_, rfl⟩
  | within => exact ⟨_, rfl⟩

theorem Grown.exists_arr {v : Value} {shown : List Value} (h : Grown c Shows v (.arr shown)) :
    ∃ items, v = .arr items ∧ shown.length = items.length ∧
      ∀ i : Nat, FieldGrown c Shows items[i]? shown[i]? := by
  cases h with
  | same => exact ⟨shown, rfl, rfl, fun i => .refl _⟩
  | each length grows => exact ⟨_, rfl, length, grows⟩

theorem dereference_eq_record {v : Value} {fields : Record} (h : dereference c v = .record fields) :
    v = .obj fields ∨ ∃ given className objectId stored,
      v = .obj given ∧ c.fetch className objectId = some stored ∧
      fields = expanded c className stored := by
  unfold dereference at h
  split at h
  · rename_i given
    split at h
    · exact .inl (by rw [Referent.record.inj h])
    · split at h
      · cases h
      · rename_i p _
        split at h
        · cases h
        · rename_i stored hf
          exact .inr ⟨given, p.className, p.objectId, stored, rfl, hf, (Referent.record.inj h).symm⟩
  · cases h

theorem dereference_eq_missing {v : Value} (h : dereference c v = .missing) :
    ∃ given, v = .obj given := by
  unfold dereference at h
  split at h
  · exact ⟨_, rfl⟩
  · cases h

/-- Whatever has grown into a record put in for a pointer has `Shows`. -/
def Settled (c : Contents) (Shows : String → Record → Record → Prop) : Prop :=
  ∀ className objectId stored shown, c.fetch className objectId = some stored →
    RecordGrown c Shows (expanded c className stored) shown → Shows className stored shown

def Keeps (c : Contents) (Shows : String → Record → Record → Prop) (path : IncludePath) : Prop :=
  ∀ fields shown : Record, RecordGrown c Shows fields shown →
    RecordGrown c Shows fields (includePath c path shown)

theorem Grown.follow (hs : Settled c Shows) {rest : IncludePath} (hrest : Keeps c Shows rest)
    {v w : Value} {fields : Record} (h : Grown c Shows v w)
    (hd : dereference c w = .record fields) :
    Grown c Shows v (.obj (includePath c rest fields)) := by
  rcases dereference_eq_record hd with rfl | ⟨given, className, objectId, stored, rfl, hf, rfl⟩
  · cases h with
    | same => exact .within (hrest fields fields (.refl fields))
    | fetched fetch shows grows =>
      have hgrows := hrest _ fields grows
      exact .fetched fetch (hs _ _ _ _ fetch hgrows) hgrows
    | within grows => exact .within (hrest _ fields grows)
  · obtain ⟨origin, rfl⟩ := h.exists_obj
    have hgrows := hrest (expanded c className stored) (expanded c className stored) (.refl _)
    exact .fetched hf (hs _ _ _ _ hf hgrows) hgrows

def element (c : Contents) (rest : IncludePath) (item : Value) : Value :=
  match dereference c item with
  | .record fields => .obj (includePath c rest fields)
  | .missing => .null
  | .nothing => item

theorem Grown.element (hs : Settled c Shows) {rest : IncludePath} (hrest : Keeps c Shows rest)
    {v w : Value} (h : Grown c Shows v w) : Grown c Shows v (element c rest w) := by
  unfold DocumentStore.element
  split
  · rename_i fields hd
    exact h.follow hs hrest hd
  · rename_i hd
    obtain ⟨given, rfl⟩ := dereference_eq_missing hd
    obtain ⟨origin, rfl⟩ := h.exists_obj
    exact .missing origin
  · exact h

theorem includePath_arr {segment : String} {record : Record} {items : List Value}
    (h : KeyMap.get? record segment = some (.arr items)) (rest : IncludePath) :
    includePath c (segment :: rest) record =
      KeyMap.insert record segment (.arr (items.map (element c rest))) := by
  rw [includePath, h]
  rfl

theorem includePath_other {segment : String} {record : Record} {v : Value}
    (h : KeyMap.get? record segment = some v) (hv : ∀ items, v ≠ .arr items) (rest : IncludePath) :
    includePath c (segment :: rest) record =
      match dereference c v with
      | .record fields => KeyMap.insert record segment (.obj (includePath c rest fields))
      | .missing => KeyMap.erase record segment
      | .nothing => record := by
  rw [includePath, h]
  cases v with
  | arr items => exact absurd rfl (hv items)
  | _ => rfl

/-- The induction is on the path: at each segment the rest of it is followed in what stands
there. -/
theorem keeps_includePath (hs : Settled c Shows) (path : IncludePath) : Keeps c Shows path := by
  induction path with
  | nil => exact fun _ _ h => h
  | cons segment rest ih =>
    intro fields shown h
    cases hw : KeyMap.get? shown segment with
    | none =>
      rw [includePath, hw]
      exact h
    | some w =>
      obtain ⟨v, hv, hgrown⟩ := h.exists_grown hw
      by_cases harr : ∃ items, w = .arr items
      · obtain ⟨items, rfl⟩ := harr
        obtain ⟨given, rfl, hlength, hgrows⟩ := hgrown.exists_arr
        rw [includePath_arr hw]
        refine h.insert hv (.each (by rw [List.length_map, hlength]) fun i => ?_)
        rw [List.getElem?_map]
        exact (hgrows i).map fun _ _ hg => hg.element hs ih
      · rw [includePath_other hw fun items hi => harr ⟨items, hi⟩]
        split
        · rename_i found hd
          exact h.insert hv (hgrown.follow hs ih hd)
        · rename_i hd
          obtain ⟨given, rfl⟩ := dereference_eq_missing hd
          obtain ⟨origin, rfl⟩ := hgrown.exists_obj
          exact h.erase hv
        · exact h

theorem recordGrown_includeAll (hs : Settled c Shows) (paths : List IncludePath) (stored : Record) :
    RecordGrown c Shows stored (includeAll c paths stored) := by
  have kept (shown : Record) (h : RecordGrown c Shows stored shown) :
      RecordGrown c Shows stored (paths.foldl (fun r path => includePath c path r) shown) := by
    induction paths generalizing shown with
    | nil => exact h
    | cons path paths ih => exact ih _ (keeps_includePath hs path stored shown h)
  exact kept stored (.refl stored)

end Growth

end DocumentStore
