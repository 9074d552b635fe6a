import DocumentStore.Proofs.Answering

/-!
Writes to different records commute. Without hooks an update or a delete sees what is stored of its
own record and the time, and it changes that record and the mask of its class; so while the clock
stands still, neither of two such writes sees the other.
-/

namespace DocumentStore

namespace KeyMap

variable {α : Type}

theorem insert_comm_of_lt (m : KeyMap α) {key other : String} (a b : α) (h : key < other) :
    insert (insert m key a) other b = insert (insert m other b) key a := by
  have hne : key ≠ other := String.ne_of_lt h
  have hgt : ¬ other < key := String.lt_asymm h
  induction m with
  | nil => simp only [insert, hne, hne.symm, h, hgt, if_false, if_true]
  | cons e m ih =>
    -- The greater name never comes before the first greater one for the lesser name.
    grind [insert, String.lt_trans]

theorem insert_comm (m : KeyMap α) {key other : String} (a b : α) (h : key ≠ other) :
    insert (insert m key a) other b = insert (insert m other b) key a := by
  rcases Std.lt_trichotomy key other with hlt | heq | hlt
  · exact insert_comm_of_lt m a b hlt
  · exact absurd heq h
  · exact (insert_comm_of_lt m b a hlt).symm

end KeyMap

namespace Collection

variable {c : Collection} {id other : String}

theorem eq_of_entries {c c' : Collection} (h : c.entries = c'.entries) : c = c' := by
  cases c
  cases c'
  cases h
  rfl

theorem entries_insert {c : Collection} {id : String} (record : Record) (h : id ∈ c.ids) :
    (c.insert id record).entries = replaceIn id record c.entries := by
  unfold insert
  rw [dif_pos h]

theorem insert_comm (record record' : Record) (h : id ∈ c.ids) (h' : other ∈ c.ids)
    (hne : id ≠ other) :
    (c.insert id record).insert other record' = (c.insert other record').insert id record := by
  have hleft : other ∈ (c.insert id record).ids := by rwa [ids_insert_of_mem record h]
  have hright : id ∈ (c.insert other record').ids := by rwa [ids_insert_of_mem record' h']
  apply eq_of_entries
  rw [entries_insert record' hleft, entries_insert record h, entries_insert record hright,
    entries_insert record' h']
  simp only [replaceIn, List.map_map]
  apply List.map_congr_left
  intro e _
  by_cases he : e.1 = id
  · simp [he, hne]
  · by_cases he' : e.1 = other <;> simp [he, he', hne.symm]

theorem insert_erase_comm (record : Record) (h : id ∈ c.ids) (hne : id ≠ other) :
    (c.insert id record).erase other = (c.erase other).insert id record := by
  have hkept : id ∈ (c.erase other).ids := by
    rw [ids_erase]
    exact List.mem_filter.mpr ⟨h, by simpa using hne⟩
  apply eq_of_entries
  rw [entries_insert record hkept]
  simp only [erase, entries_insert record h, replaceIn, List.filter_map]
  congr 1
  apply List.filter_congr
  intro e _
  by_cases he : e.1 = id <;> simp [he]

theorem erase_comm (c : Collection) (id other : String) :
    (c.erase id).erase other = (c.erase other).erase id := by
  apply eq_of_entries
  simp only [erase, List.filter_filter, Bool.and_comm]

end Collection

theorem Mask.addAll_comm (mask : Mask) (fields fields' : List String) :
    (mask.addAll fields).addAll fields' = (mask.addAll fields').addAll fields := by
  have hcomm (m : Mask) (f g : String) :
      KeyMap.insert (KeyMap.insert m f ()) g () = KeyMap.insert (KeyMap.insert m g ()) f () := by
    by_cases h : f = g
    · rw [h]
    · exact KeyMap.insert_comm m () () h
  simp only [addAll, ← List.foldl_append]
  exact List.perm_append_comm.foldl_eq' (fun f _ g _ m => hcomm m f g) mask

namespace Contents

def rework (c : Contents) (className : String) (hidden : List String)
    (change : Collection → Collection) : Contents :=
  (c.hide className hidden).setCollection className (change (c.collection className))

theorem rework_insert (c : Contents) (className : String) (hidden : List String) (objectId : String)
    (record : Record) :
    c.rework className hidden (·.insert objectId record) =
      (c.hide className hidden).insert className objectId record := by
  rw [rework, insert, collection_hide]

theorem hide_setCollection (c : Contents) (className other : String) (fields : List String)
    (records : Collection) :
    (c.setCollection other records).hide className fields =
      (c.hide className fields).setCollection other records := by
  unfold hide
  split <;> rfl

theorem setCollection_self (c : Contents) (className : String) (records records' : Collection) :
    (c.setCollection className records).setCollection className records' =
      c.setCollection className records' := by
  simp only [setCollection, KeyMap.insert_insert_self]

theorem setCollection_comm (c : Contents) {className other : String} (records records' : Collection)
    (h : className ≠ other) :
    (c.setCollection className records).setCollection other records' =
      (c.setCollection other records').setCollection className records := by
  simp only [setCollection, KeyMap.insert_comm _ _ _ h]

theorem mask_setMask (c : Contents) (className other : String) (mask : Mask) :
    (c.setMask className mask).mask other = if other = className then mask else c.mask other := by
  simp only [Contents.mask, mask?, setMask, KeyMap.get?_insert]
  split <;> rfl

theorem hide_comm (c : Contents) (className other : String) (fields fields' : List String) :
    (c.hide className fields).hide other fields' =
      (c.hide other fields').hide className fields := by
  by_cases hf : fields.isEmpty
  · simp only [hide, hf, if_true]
  · by_cases hf' : fields'.isEmpty
    · simp only [hide, hf', if_true]
    · simp only [hide, hf, hf', Bool.false_eq_true, if_false, mask_setMask]
      by_cases hc : other = className
      · subst hc
        simp only [if_true, Mask.addAll_comm (c.mask other) fields fields']
        simp only [setMask, KeyMap.insert_insert_self]
      · simp only [hc, Ne.symm hc, if_false]
        simp only [setMask, KeyMap.insert_comm _ _ _ hc]

theorem rework_comm (c : Contents) {className other : String} (hidden hidden' : List String)
    {change change' : Collection → Collection}
    (h : className = other →
      change' (change (c.collection className)) = change (change' (c.collection className))) :
    (c.rework className hidden change).rework other hidden' change' =
      (c.rework other hidden' change').rework className hidden change := by
  simp only [rework, hide_setCollection, hide_comm c className other, collection_setCollection,
    collection_hide]
  by_cases hc : className = other
  · subst hc
    simp only [if_true, setCollection_self, h rfl]
  · simp only [hc, Ne.symm hc, if_false]
    exact setCollection_comm _ _ _ hc

end Contents

def Record.revised (current : Record) (objectId now : String) (draft : Record) : Record :=
  let named := KeyMap.insert draft "objectId" (.str objectId)
  let dated := match KeyMap.get? current "createdAt" with
    | some createdAt => KeyMap.insert named "createdAt" createdAt
    | none => KeyMap.erase named "createdAt"
  KeyMap.insert dated "updatedAt" (.str (laterStamp (KeyMap.get? current "updatedAt") now))

/-- What an update or a delete of one record does, told without the engine that it does it to. -/
inductive Edit where
  | refused (outcome : Outcome)
  | replaced (record : Record) (hidden : List String)
  | removed

namespace Edit

def ofRequest (request : Request) (objectId : String) (stored? : Option Record) (now : String) :
    Edit :=
  match stored? with
  | none => .refused (.ok .notFound)
  | some stored =>
    if request.operation = .delete then .removed
    else match (Record.ofPayload request.payload).bind (Draft.ofChanges stored) with
      | .error fault => .refused (.error fault)
      | .ok draft => .replaced (stored.revised objectId now draft.record) draft.relations

def contents (edit : Edit) (className objectId : String) (c : Contents) : Contents :=
  match edit with
  | .refused _ => c
  | .replaced record hidden => c.rework className hidden (·.insert objectId record)
  | .removed => c.rework className [] (·.erase objectId)

def clock (edit : Edit) (clock : Clock) : Clock :=
  match edit with
  | .replaced _ _ => clock.read.2
  | .refused _ | .removed => clock

def outcome (edit : Edit) (className : String) (after : Contents) : Outcome :=
  match edit with
  | .refused outcome => outcome
  | .replaced record _ =>
    .ok (.ok (.obj (after.visible className (KeyMap.without record ["objectId", "createdAt"]))))
  | .removed => .ok (.ok (.obj []))

variable {edit : Edit} {className objectId other otherId now : String} {stored? : Option Record}
  {request : Request}

theorem refused_or_isSome (h : ofRequest request objectId stored? now = edit) :
    (∃ outcome, edit = .refused outcome) ∨ stored?.isSome = true := by
  cases stored? with
  | none => exact .inl ⟨_, h.symm⟩
  | some stored => exact .inr rfl

theorem contents_comm_of_stored (edit edit' : Edit) {c : Contents}
    (hi : (c.fetch className objectId).isSome = true) (hj : (c.fetch other otherId).isSome = true)
    (hne : (className, objectId) ≠ (other, otherId)) :
    edit'.contents other otherId (edit.contents className objectId c) =
      edit.contents className objectId (edit'.contents other otherId c) := by
  have hids : className = other → objectId ≠ otherId := fun hc hid => hne (by rw [hc, hid])
  have hmem : objectId ∈ (c.collection className).ids :=
    (Collection.mem_ids_iff ..).mpr (Option.isSome_iff_exists.mp hi)
  have hmem' : otherId ∈ (c.collection other).ids :=
    (Collection.mem_ids_iff ..).mpr (Option.isSome_iff_exists.mp hj)
  -- Both ids are listed, so no insert moves a record to the end of its class.
  cases edit with
  | refused outcome => rfl
  | replaced record hidden =>
    cases edit' with
    | refused outcome => rfl
    | replaced record' hidden' =>
      simp only [contents]
      apply Contents.rework_comm
      rintro rfl
      exact Collection.insert_comm record record' hmem hmem' (hids rfl)
    | removed =>
      simp only [contents]
      apply Contents.rework_comm
      exact fun hc => Collection.insert_erase_comm record hmem (hids hc)
  | removed =>
    cases edit' with
    | refused outcome => rfl
    | replaced record' hidden' =>
      simp only [contents]
      apply Contents.rework_comm
      rintro rfl
      exact (Collection.insert_erase_comm record' hmem' (hids rfl).symm).symm
    | removed =>
      simp only [contents]
      apply Contents.rework_comm
      exact fun _ => Collection.erase_comm _ objectId otherId

theorem clock_comm (edit edit' : Edit) (clock : Clock) :
    edit'.clock (edit.clock clock) = edit.clock (edit'.clock clock) := by
  cases edit <;> cases edit' <;> rfl

theorem fetch_contents (edit : Edit) {c : Contents}
    (hne : (className, objectId) ≠ (other, otherId)) :
    (edit.contents className objectId c).fetch other otherId = c.fetch other otherId := by
  have hother : ¬ (other = className ∧ otherId = objectId) := fun h => hne (by rw [h.1, h.2])
  cases edit with
  | refused outcome => rfl
  | replaced record hidden =>
    rw [contents, Contents.rework_insert, Contents.fetch_insert, if_neg hother, Contents.fetch_hide]
  | removed => exact (c.fetch_erase className objectId other otherId).trans (if_neg hother)

theorem mask_contents (edit : Edit) {c : Contents} (hne : other ≠ className) :
    (edit.contents className objectId c).mask? other = c.mask? other := by
  cases edit with
  | refused outcome => rfl
  | replaced record hidden => exact c.mask?_hide_of_ne hidden hne
  | removed => rfl

theorem status_outcome (edit : Edit) (className : String) (c c' : Contents) :
    (edit.outcome className c).map Response.status =
      (edit.outcome className c').map Response.status := by
  cases edit <;> rfl

theorem outcome_congr (edit : Edit) {c c' : Contents} (h : c.mask? className = c'.mask? className) :
    edit.outcome className c = edit.outcome className c' := by
  cases edit with
  | replaced record hidden => simp only [outcome, Contents.visible, Contents.mask, h]
  | refused outcome => rfl
  | removed => rfl

end Edit

def Clock.Stopped (c : Clock) : Prop := ∀ t ∈ c.scheduled, t = c.standing

namespace Clock

theorem Stopped.read_fst {c : Clock} (h : c.Stopped) : c.read.1 = c.standing := by
  obtain ⟨scheduled, standing⟩ := c
  cases scheduled with
  | nil => rfl
  | cons t rest => exact h t List.mem_cons_self

theorem Stopped.edit {c : Clock} (h : c.Stopped) (edit : Edit) :
    (edit.clock c).read.1 = c.read.1 := by
  obtain ⟨scheduled, standing⟩ := c
  cases edit with
  | refused outcome => rfl
  | removed => rfl
  | replaced record hidden =>
    rw [h.read_fst]
    cases scheduled with
    | nil => rfl
    | cons t rest =>
      exact Stopped.read_fst (c := ⟨rest, standing⟩) fun t' ht => h t' (List.mem_cons_of_mem t ht)

end Clock

structure Request.Edits (request : Request) (className objectId : String) : Prop where
  operation : request.operation = .update ∨ request.operation = .delete
  className : request.className = className
  objectId : request.objectId = some objectId

namespace Engine

variable {nested : Serve} {e : Engine} {className objectId other otherId : String} {r s : Request}

def edit (e : Engine) (request : Request) (objectId : String) : Edit :=
  .ofRequest request objectId (e.contents.fetch request.className objectId) e.stamp.1

def apply (e : Engine) (className objectId : String) (edit : Edit) : Engine :=
  { e with contents := edit.contents className objectId e.contents, clock := edit.clock e.clock }

theorem commitChanges_of_current {current : Record} (draft : Draft)
    (h : e.contents.fetch className objectId = some current) :
    e.commitChanges className objectId draft =
      (.ok (.obj (((e.contents.hide className draft.relations).insert className objectId
          (current.revised objectId e.stamp.1 draft.record)).visible className
          (KeyMap.without (current.revised objectId e.stamp.1 draft.record)
            ["objectId", "createdAt"]))),
        { e with
          clock := e.clock.read.2
          contents := (e.contents.hide className draft.relations).insert className objectId
            (current.revised objectId e.stamp.1 draft.record) }) := by
  simp only [commitChanges, h]
  rfl

theorem serveWith_of_edits (nested : Serve) (hr : r.Edits className objectId) (hh : e.hooks = []) :
    serveWith nested r e = some
      ((e.edit r objectId).outcome className
        (e.apply className objectId (e.edit r objectId)).contents,
        e.apply className objectId (e.edit r objectId)) := by
  obtain ⟨operation, name, id, payload⟩ := r
  obtain ⟨hop, rfl, rfl⟩ :
    (operation = .update ∨ operation = .delete) ∧ name = className ∧ id = some objectId :=
    ⟨hr.operation, hr.className, hr.objectId⟩
  have hk (kind : HookKind) : e.hooks.get? name kind = none := by rw [hh]; rfl
  cases hf : e.contents.fetch name objectId with
  | none =>
    rcases hop with rfl | rfl <;>
      simp only [serveWith, update, delete, edit, Edit.ofRequest, hf] <;> rfl
  | some stored =>
    rcases hop with rfl | rfl
    · cases hd : (Record.ofPayload payload).bind (Draft.ofChanges stored) with
      | error fault =>
        simp only [serveWith, update, hf, hd, edit, Edit.ofRequest]
        rfl
      | ok draft =>
        simp only [serveWith, update, hf, hd, edit, Edit.ofRequest, callHook, hk,
          commitChanges_of_current _ hf, apply, Edit.contents, Edit.outcome, Edit.clock,
          Contents.rework_insert, reduceCtorEq, if_false]
    · simp only [serveWith, delete, hf, edit, Edit.ofRequest, callHook, hk,
        commitRemoval_of_stored hf]
      rfl

theorem edit_apply (edit : Edit) (hc : e.clock.Stopped) (hs : s.Edits other otherId)
    (hne : (className, objectId) ≠ (other, otherId)) :
    (e.apply className objectId edit).edit s otherId = e.edit s otherId := by
  obtain rfl := hs.className
  simp only [Engine.edit, apply, Edit.fetch_contents edit hne, stamp, hc.edit edit]

theorem apply_comm (hr : r.Edits className objectId) (hs : s.Edits other otherId)
    (hne : (className, objectId) ≠ (other, otherId)) :
    (e.apply className objectId (e.edit r objectId)).apply other otherId (e.edit s otherId) =
      (e.apply other otherId (e.edit s otherId)).apply className objectId (e.edit r objectId) := by
  obtain rfl := hr.className
  obtain rfl := hs.className
  have hcontents : (e.edit s otherId).contents s.className otherId
      ((e.edit r objectId).contents r.className objectId e.contents) =
      (e.edit r objectId).contents r.className objectId
        ((e.edit s otherId).contents s.className otherId e.contents) := by
    rcases Edit.refused_or_isSome (rfl : _ = e.edit r objectId) with ⟨outcome, h⟩ | hi
    · rw [h]
      rfl
    · rcases Edit.refused_or_isSome (rfl : _ = e.edit s otherId) with ⟨outcome, h⟩ | hj
      · rw [h]
        rfl
      · exact Edit.contents_comm_of_stored _ _ hi hj hne
  simp only [apply, hcontents, Edit.clock_comm (e.edit r objectId) (e.edit s otherId)]

theorem outcome_apply (edit edit' : Edit) (hne : className ≠ other) :
    edit.outcome className (e.apply other otherId edit').contents =
      edit.outcome className e.contents :=
  edit.outcome_congr (edit'.mask_contents hne)

/--
Two updates or deletes of different records may be sent in either order, where there are no hooks
and the clock stands still. The engine comes to the same, and each of them has the same fault or a
response of the same status; and if the records are of different classes, the same response.
-/
theorem edits_commute (nested : Serve) (hh : e.hooks = []) (hc : e.clock.Stopped)
    (hr : r.Edits className objectId) (hs : s.Edits other otherId)
    (hne : (className, objectId) ≠ (other, otherId)) :
    ∃ first first' second second' e₁ e₂ e',
      serveWith nested r e = some (first, e₁) ∧ serveWith nested s e₁ = some (second, e') ∧
      serveWith nested s e = some (second', e₂) ∧ serveWith nested r e₂ = some (first', e') ∧
      first.map Response.status = first'.map Response.status ∧
      second.map Response.status = second'.map Response.status ∧
      (className ≠ other → first = first' ∧ second = second') := by
  have hcomm := apply_comm (e := e) hr hs hne
  have hsecond :=
    serveWith_of_edits nested hs (e := e.apply className objectId (e.edit r objectId)) hh
  have hfirst := serveWith_of_edits nested hr (e := e.apply other otherId (e.edit s otherId)) hh
  rw [edit_apply _ hc hs hne] at hsecond
  rw [edit_apply _ hc hr hne.symm, ← hcomm] at hfirst
  refine ⟨_, _, _, _, _, _, _, serveWith_of_edits nested hr hh, hsecond,
    serveWith_of_edits nested hs hh, hfirst, Edit.status_outcome .., Edit.status_outcome ..,
    fun hclass => ⟨?_, ?_⟩⟩
  · exact (outcome_apply _ _ hclass).symm
  · rw [hcomm]
    exact outcome_apply _ _ (Ne.symm hclass)

def paired : Engine where
  settings := { objectIdLength := 1 }
  contents :=
    (({} : Contents).insert "Item" "a" [("createdAt", .str "1970-01-01T00:00:00.000Z"),
    ("objectId", .str "a"), ("updatedAt", .str "1970-01-01T00:00:00.000Z")]).insert "Item" "b"
      [("createdAt", .str "1970-01-01T00:00:00.000Z"),
    ("objectId", .str "b"), ("updatedAt", .str "1970-01-01T00:00:00.000Z")]
  clock := { scheduled := [5], standing := 5 }

def relatingFirst : Request :=
  .update "Item" "a" (.obj [("parts", .obj [("__op", .str "AddRelation"), ("objects", .arr [])])])

def namingSecond : Request := .update "Item" "b" (.obj [("parts", .str "none")])

theorem edits_commute_paired :
    paired.hooks = [] ∧ paired.clock.Stopped ∧ relatingFirst.Edits "Item" "a" ∧
    namingSecond.Edits "Item" "b" ∧
      (("Item", "a") : String × String) ≠ ("Item", "b") ∧
      ∃ first first' second second' e₁ e₂ e',
        serveWith (serve 0) relatingFirst paired = some (first, e₁) ∧
        serveWith (serve 0) namingSecond e₁ = some (second, e') ∧
        serveWith (serve 0) namingSecond paired = some (second', e₂) ∧
        serveWith (serve 0) relatingFirst e₂ = some (first', e') ∧
        first.map Response.status = first'.map Response.status ∧
        second.map Response.status = second'.map Response.status ∧
        (("Item" : String) ≠ "Item" → first = first' ∧ second = second') := by
  have hstopped : paired.clock.Stopped := by
    intro t ht
    exact List.mem_singleton.mp ht
  have hfirst : relatingFirst.Edits "Item" "a" := ⟨.inl rfl, rfl, rfl⟩
  have hsecond : namingSecond.Edits "Item" "b" := ⟨.inl rfl, rfl, rfl⟩
  exact ⟨rfl, hstopped, hfirst, hsecond, by decide,
    edits_commute (serve 0) rfl hstopped hfirst hsecond (by decide)⟩

/-- In one class the responses may differ: a field that the other request hides shows in the
response that comes first. -/
example :
    ∃ first second second' e₁ e₂ e', serveWith (serve 0) relatingFirst paired = some (first, e₁) ∧
    serveWith (serve 0) namingSecond e₁ = some (.ok second, e') ∧
    serveWith (serve 0) namingSecond paired = some (.ok second', e₂) ∧
    second.body.field? "parts" = none ∧ second'.body.field? "parts" = some (.str "none") :=
  ⟨_, _, _, _, _, _, rfl, rfl, rfl, rfl, rfl⟩

end Engine

end DocumentStore
