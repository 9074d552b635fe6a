import DocumentStore.Proofs.Including
import DocumentStore.Proofs.Reading
import DocumentStore.Proofs.Sorted

/-!
Hidden fields and responses. What the hidden fields hold shows in no point read and in no unfiltered
query, whatever is included: two stores that differ in nothing else answer alike.
-/

namespace DocumentStore

inductive Inclusion where
  | put (v : Value)
  | drop
  | keep

namespace Inclusion

def apply (record : Record) (field : String) : Inclusion → Record
  | .put v => KeyMap.insert record field v
  | .drop => KeyMap.erase record field
  | .keep => record

def after (v : Value) : Inclusion → Option Value
  | .put w => some w
  | .drop => none
  | .keep => some v

theorem get?_apply {record : Record} {field : String} {v : Value}
    (h : KeyMap.get? record field = some v) (change : Inclusion) (key : String) :
    KeyMap.get? (change.apply record field) key =
      if key = field then change.after v else KeyMap.get? record key := by
  cases change with
  | put w => exact KeyMap.get?_insert record field key w
  | drop => exact KeyMap.get?_erase record field key
  | keep =>
    split
    · rename_i hk
      rw [hk]
      exact h
    · rfl

theorem sorted_apply {record : Record} (h : KeyMap.Sorted record) (field : String)
    (change : Inclusion) :
    KeyMap.Sorted (change.apply record field) := by
  cases change with
  | put w => exact h.insert field w
  | drop => exact h.erase field
  | keep => exact h

end Inclusion

def inclusion (c : Contents) (rest : IncludePath) : Value → Inclusion
  | .arr items => .put (.arr (items.map (element c rest)))
  | v =>
    match dereference c v with
    | .record fields => .put (.obj (includePath c rest fields))
    | .missing => .drop
    | .nothing => .keep

theorem includePath_cons (c : Contents) (segment : String) (rest : IncludePath) (record : Record) :
    includePath c (segment :: rest) record =
      match KeyMap.get? record segment with
      | none => record
      | some v => (inclusion c rest v).apply record segment := by
  rw [includePath]
  cases KeyMap.get? record segment with
  | none => rfl
  | some v =>
    cases v with
    | arr items => rfl
    | _ =>
      simp only [inclusion]
      generalize dereference c _ = referent
      cases referent <;> rfl

theorem get?_includePath (c : Contents) (segment : String) (rest : IncludePath) (record : Record)
    (key : String) :
    KeyMap.get? (includePath c (segment :: rest) record) key =
      if key = segment then (KeyMap.get? record segment).bind fun v => (inclusion c rest v).after v
      else KeyMap.get? record key := by
  rw [includePath_cons]
  cases hr : KeyMap.get? record segment with
  | none =>
    change KeyMap.get? record key = if key = segment then none else KeyMap.get? record key
    split
    · rename_i hk
      rw [hk]
      exact hr
    · rfl
  | some v => exact Inclusion.get?_apply hr (inclusion c rest v) key

theorem sorted_includePath {record : Record} (h : KeyMap.Sorted record) (c : Contents)
    (path : IncludePath) :
    KeyMap.Sorted (includePath c path record) := by
  cases path with
  | nil => exact h
  | cons segment rest =>
    rw [includePath_cons]
    split
    · exact h
    · exact Inclusion.sorted_apply h segment _

theorem sorted_includeAll {record : Record} (h : KeyMap.Sorted record) (c : Contents)
    (paths : List IncludePath) :
    KeyMap.Sorted (includeAll c paths record) := by
  unfold includeAll
  induction paths generalizing record with
  | nil => exact h
  | cons path paths ih => exact ih (sorted_includePath h c path)

def expansionTags (className : String) : Record :=
  [("__type", .str "Object"), ("className", .str className)]

namespace SortedRecord

def follow (record : SortedRecord) (c : Contents) (path : IncludePath) : SortedRecord :=
  ⟨includePath c path record.1, sorted_includePath record.2 c path⟩

def followAll (record : SortedRecord) (c : Contents) (paths : List IncludePath) : SortedRecord :=
  ⟨includeAll c paths record.1, sorted_includeAll record.2 c paths⟩

def tags (className : String) : SortedRecord :=
  ⟨expansionTags className, KeyMap.sorted_pair (by decide) _ _⟩

end SortedRecord

theorem select_of_all {records : List Record} :
    select (fun _ => .ok true) records = .ok records := by
  induction records with
  | nil => rfl
  | cons record rest ih =>
    rw [select, ih]
    rfl

theorem matching_matchAll (c : Contents) (className : String) :
    matching c className .matchAll = .ok (c.records className) :=
  select_of_all

structure ReadParams.Plain (params : ReadParams) : Prop where
  filter : params.filter = none
  sort : params.sort = []
  redirectKey : params.redirectKey = none

theorem ReadParams.plain_of_absent {payload : Value} {params : ReadParams}
    (h : ofPayload payload = .ok params) (hwhere : payload.field? "where" = none)
    (horder : payload.field? "order" = none)
    (hredirect : payload.field? "redirectClassNameForKey" = none) : params.Plain := by
  cases payload with
  | null =>
    obtain rfl : ({} : ReadParams) = params := Except.ok.inj h
    exact ⟨rfl, rfl, rfl⟩
  | obj fields =>
    simp only [Value.field?] at hwhere horder hredirect
    have hfilter : readFilter (KeyMap.get? fields "where") = .ok none := by rw [hwhere]; rfl
    simp only [ofPayload, bind_eq_ok_iff] at h
    obtain ⟨filter, hf, limit, -, offset, -, h⟩ := h
    obtain rfl : none = filter := Except.ok.inj (hfilter.symm.trans hf)
    obtain rfl := Except.ok.inj h
    exact ⟨rfl, by simp only [textOf, horder]; rfl, by simp only [textOf, hredirect]; rfl⟩
  | _ => cases h

namespace Contents

/-- Two stores hide the same fields and list the same ids, and their records are the same but for
hidden fields. -/
structure Alike (c c' : Contents) : Prop where
  hides : ∀ className field, c.Hides className field ↔ c'.Hides className field
  ids : ∀ className, (c.collection className).ids = (c'.collection className).ids
  visible : ∀ className objectId stored stored', c.fetch className objectId = some stored →
    c'.fetch className objectId = some stored' →
      c.visible className stored = c'.visible className stored'

def Agree (c : Contents) (className : String) (record record' : Record) : Prop :=
  ∀ key, ¬ c.Hides className key → KeyMap.get? record key = KeyMap.get? record' key

variable {c c' : Contents} {className : String}

theorem Alike.agree (h : c.Alike c') {objectId : String} {stored stored' : Record}
    (hf : c.fetch className objectId = some stored)
    (hf' : c'.fetch className objectId = some stored') :
    c.Agree className stored stored' := by
  intro key hk
  have hv := congrArg (KeyMap.get? · key) (h.visible className objectId stored stored' hf hf')
  simp only [get?_visible, if_neg hk, if_neg (mt (h.hides className key).mpr hk)] at hv
  exact hv

theorem Alike.visible_eq (h : c.Alike c') (record record' : SortedRecord)
    (ha : c.Agree className record record') :
    c.visible className record = c'.visible className record' := by
  refine SortedRecord.eq_of_get? (record.without _) (record'.without _) fun key => ?_
  have hsame := h.hides className key
  change KeyMap.get? (c.visible className record) key =
    KeyMap.get? (c'.visible className record') key
  rw [get?_visible, get?_visible]
  by_cases hk : c.Hides className key
  · rw [if_pos hk, if_pos (hsame.mp hk)]
  · rw [if_neg hk, if_neg (mt hsame.mpr hk), ha key hk]

theorem Alike.fetch_cases (h : c.Alike c') (className objectId : String) :
    c.fetch className objectId = none ∧ c'.fetch className objectId = none ∨
    ∃ stored stored', c.fetch className objectId = some stored ∧
      c'.fetch className objectId = some stored' ∧
      c.Agree className stored stored' := by
  rcases fetch_cases_of_ids_eq (h.ids className) objectId with hnone | ⟨stored, stored', hf, hf'⟩
  · exact .inl hnone
  · exact .inr ⟨stored, stored', hf, hf', h.agree hf hf'⟩

/-- A record is stripped before anything is put into it, so what an include fetches does not depend
on hidden fields. -/
theorem Alike.expanded_eq (h : c.Alike c') {stored stored' : Record}
    (ha : c.Agree className stored stored') :
    expanded c className stored = expanded c' className stored' := by
  -- The stored fields are set one by one over the two tags, so the order holds whatever order they
  -- have been stored in.
  refine h.visible_eq ((SortedRecord.tags className).overlay stored)
    ((SortedRecord.tags className).overlay stored') fun key hk => ?_
  show KeyMap.get? (KeyMap.overlay _ stored) key = KeyMap.get? (KeyMap.overlay _ stored') key
  rw [KeyMap.get?_overlay, KeyMap.get?_overlay, ha key hk]

theorem Alike.dereference_eq (h : c.Alike c') (v : Value) : dereference c v = dereference c' v := by
  unfold dereference
  split
  · split
    · rfl
    · split
      · rfl
      · rename_i p _
        rcases h.fetch_cases p.className p.objectId with ⟨hf, hf'⟩ | ⟨stored, stored', hf, hf', ha⟩
        · simp only [hf, hf']
        · simp only [hf, hf', h.expanded_eq ha]
  · rfl

/-- The induction is on the path; the records that stand further along it are equal by what has been
shown of `dereference`. -/
theorem Alike.includePath_eq (h : c.Alike c') (path : IncludePath) (record : Record) :
    includePath c path record = includePath c' path record := by
  induction path generalizing record with
  | nil => rfl
  | cons segment rest ih =>
    have helement : element c rest = element c' rest := by
      funext item
      simp only [element, h.dereference_eq, ih]
    have hinclusion (v : Value) : inclusion c rest v = inclusion c' rest v := by
      cases v <;> simp only [inclusion, helement, h.dereference_eq, ih]
    simp only [includePath_cons, hinclusion]

theorem Agree.includePath {record record' : Record} (h : c.Agree className record record')
    (path : IncludePath) :
    c.Agree className (includePath c path record) (includePath c path record') := by
  cases path with
  | nil => exact h
  | cons segment rest =>
    intro key hk
    rw [get?_includePath, get?_includePath]
    split
    · rename_i hs
      rw [← hs, h key hk]
    · exact h key hk

theorem Agree.includeAll (ha : c.Alike c') {record record' : Record}
    (h : c.Agree className record record') (paths : List IncludePath) :
    c.Agree className (includeAll c paths record) (includeAll c' paths record') := by
  unfold DocumentStore.includeAll
  induction paths generalizing record record' with
  | nil => exact h
  | cons path paths ih =>
    -- Both stores follow a path alike, so only the two records are left to compare, and in one
    -- store.
    rw [List.foldl_cons, List.foldl_cons, ← ha.includePath_eq path record']
    exact ih (h.includePath path)

variable {d d' : Holding KeyMap.Sorted}

theorem Alike.shown_eq (h : Alike d d') (className objectId : String) (paths : List IncludePath) :
    (d.fetch className objectId).map (fun stored =>
      d.visible className (includeAll d paths stored)) =
      (d'.fetch className objectId).map fun stored =>
        d'.visible className (includeAll d' paths stored) := by
  rcases h.fetch_cases className objectId with ⟨hf, hf'⟩ | ⟨stored, stored', hf, hf', ha⟩
  · rw [hf, hf', Option.map_none, Option.map_none]
  · rw [hf, hf', Option.map_some, Option.map_some]
    let record : SortedRecord := ⟨stored, d.every className objectId stored hf⟩
    let record' : SortedRecord := ⟨stored', d'.every className objectId stored' hf'⟩
    exact congrArg some
      (h.visible_eq (record.followAll d paths) (record'.followAll d' paths) (ha.includeAll h paths))

def shownRecords (c : Contents) (className : String) (paths : List IncludePath) : List Record :=
  (c.records className).map fun record => c.visible className (includeAll c paths record)

theorem map_some_shownRecords (c : Contents) (className : String) (paths : List IncludePath) :
    (c.shownRecords className paths).map some = (c.collection className).ids.map fun objectId =>
      (c.fetch className objectId).map fun record =>
        c.visible className (includeAll c paths record) := by
  have hrecords := Collection.map_some_records (c.collection className)
  calc
    (c.shownRecords className paths).map some
        = ((c.records className).map some).map (Option.map fun record =>
          c.visible className (includeAll c paths record)) := by
          simp only [shownRecords, List.map_map, Function.comp_def, Option.map_some]
    _ = _ := by rw [records, hrecords, List.map_map]; rfl

theorem Alike.shownRecords_eq (h : Alike d d') (className : String) (paths : List IncludePath) :
    d.shownRecords className paths = d'.shownRecords className paths := by
  refine (List.map_inj_right fun _ _ => Option.some.inj).mp ?_
  rw [map_some_shownRecords, map_some_shownRecords, h.ids]
  exact List.map_congr_left fun objectId _ => h.shown_eq className objectId paths

theorem length_shownRecords (c : Contents) (className : String) (paths : List IncludePath) :
    (c.shownRecords className paths).length = (c.records className).length := List.length_map _

theorem page_records (c : Contents) (settings : Settings) (className : String)
    (params : ReadParams) :
    c.page settings className params (c.records className) =
      ((c.shownRecords className params.includes).drop (params.offset.getD 0)).take
        (settings.pageSize params.limit) := by
  rw [page, shownRecords, List.map_take, List.map_drop]

theorem Alike.readOne_eq (h : Alike d d') (className objectId : String) (payload : Value) :
    d.readOne className objectId payload = d'.readOne className objectId payload := by
  unfold readOne
  congr
  funext params
  have hshown := h.shown_eq className objectId params.includes
  rcases h.fetch_cases className objectId with ⟨hf, hf'⟩ | ⟨stored, stored', hf, hf', -⟩
  · rw [hf, hf']
  · rw [hf, hf', Option.map_some, Option.map_some] at hshown
    rw [hf, hf']
    simp only [Option.some.inj hshown]

theorem targetClass_of_plain {params : ReadParams} (hp : params.Plain) (c : Contents)
    (className : String) :
    c.targetClass className params = className := by
  rw [targetClass, hp.filter]
  rfl

theorem sortedMatches_of_plain {params : ReadParams} (hp : params.Plain) (c : Contents)
    (className : String) :
    c.sortedMatches className params = .ok (c.records className) := by
  rw [sortedMatches_of_unsorted hp.sort, hp.filter]
  exact matching_matchAll c className

theorem query_of_plain {payload : Value} {params : ReadParams}
    (hparams : ReadParams.ofPayload payload = .ok params) (hp : params.Plain) (c : Contents)
    (settings : Settings) (className : String) :
    c.query settings className payload = .ok (.ok (.obj (
      if params.count then [("count", .num (.ofNat (c.records className).length)),
        ("results", .arr [])]
      else [("results",
        .arr ((((c.shownRecords className params.includes).drop (params.offset.getD 0)).take
        (settings.pageSize params.limit)).map .obj))]))) := by
  have hredirect : params.redirectKey.isSome = false := by rw [hp.redirectKey]; rfl
  unfold query
  rw [hparams, ← page_records]
  show (c.sortedMatches (c.targetClass className params) params >>= _) = _
  rw [targetClass_of_plain hp, sortedMatches_of_plain hp]
  show Except.ok (Response.ok (.obj (if params.redirectKey.isSome then _ else _))) = _
  rw [hredirect]
  rfl

theorem Alike.query_eq (h : Alike d d') (settings : Settings) (className : String) {payload : Value}
    (hp : ∀ params, ReadParams.ofPayload payload = .ok params → params.Plain) :
    d.query settings className payload = d'.query settings className payload := by
  cases hparams : ReadParams.ofPayload payload with
  | error fault => rw [query_of_error hparams, query_of_error hparams]
  | ok params =>
    have hshown := h.shownRecords_eq className params.includes
    have hcount : (d.records className).length = (d'.records className).length := by
      rw [← length_shownRecords, hshown, length_shownRecords]
    rw [query_of_plain hparams (hp params hparams), query_of_plain hparams (hp params hparams),
      hshown, hcount]

end Contents

namespace Engine

/--
Reads of one record, with any includes, and queries without filter, order and redirection, with any
includes, window and count, answer alike where two stores differ in hidden fields only.
-/
theorem reads_alike {nested nested' : Serve} {e e' : Engine.Holding KeyMap.Sorted}
    {request : Request} (hs : e.settings = e'.settings) (h : e.contents.Alike e'.contents)
    (hr : request.operation = .read)
    (hp : request.objectId = none → ∀ params, ReadParams.ofPayload request.payload = .ok params →
      params.Plain) :
    ∃ outcome, serveWith nested request e = some (outcome, ↑e) ∧
      serveWith nested' request e' = some (outcome, ↑e') := by
  have hstores : Contents.Alike e.store e'.store := h
  unfold serveWith
  rw [hr]
  cases hid : request.objectId with
  | none =>
    have hquery : e.contents.query e.settings request.className request.payload =
        e'.contents.query e.settings request.className request.payload :=
      hstores.query_eq e.settings request.className (hp hid)
    refine ⟨_, rfl, ?_⟩
    rw [← hs, hquery]
  | some objectId =>
    have hread : e.contents.readOne request.className objectId request.payload =
        e'.contents.readOne request.className objectId request.payload :=
      hstores.readOne_eq request.className objectId request.payload
    refine ⟨_, rfl, ?_⟩
    rw [hread]

def discreet (friends : Value) : Engine.Holding KeyMap.Sorted where
  contents := ((Contents.Holding.empty KeyMap.Sorted).hide "Item" ["friends"]).insert "Item" "1"
    ⟨[("friends", friends), ("name", .str "a")], KeyMap.sorted_pair (by decide) _ _⟩
  every := Contents.Holding.every _

theorem alike_discreet (friends friends' : Value) :
    (discreet friends).contents.Alike (discreet friends').contents where
  hides _ _ := Iff.rfl
  ids className := by
    simp only [discreet, Contents.Holding.toContents_insert, Contents.insert,
      Contents.collection_setCollection]
    split <;> rfl
  visible className objectId stored stored' hf hf' := by
    simp only [discreet, Contents.Holding.toContents_insert, Contents.Holding.toContents_hide,
      Contents.fetch_insert, Contents.fetch_hide] at hf hf'
    split at hf
    · rename_i hitem
      rw [if_pos hitem] at hf'
      rw [hitem.1, ← Option.some.inj hf, ← Option.some.inj hf']
      rfl
    · cases hf

theorem reads_alike_discreet :
    ∃ outcome,
      serveWith (serve 0) (.query "Item" (.obj [("include", .str "friends.owner")]))
        (discreet (.arr [])) = some (outcome, ↑(discreet (.arr []))) ∧
      serveWith (serve 0) (.query "Item" (.obj [("include", .str "friends.owner")]))
        (discreet (.str "b")) = some (outcome, ↑(discreet (.str "b"))) :=
  reads_alike rfl (alike_discreet _ _) rfl fun _ _ h => ReadParams.plain_of_absent h rfl rfl rfl

end Engine

/-- The stores of runs are of this kind, at every moment, so they too show nothing of what they
hide. -/
theorem Run.Giving.responses_alike (r r' : Run.Giving KeyMap.Sorted) {n n' : Nat}
    (h : (r.moment n).engine.contents.Alike (r'.moment n').engine.contents) (className : String)
    (payload : Value) :
    (∀ objectId, (r.moment n).engine.contents.readOne className objectId payload =
      (r'.moment n').engine.contents.readOne className objectId payload) ∧
    ((∀ params, ReadParams.ofPayload payload = .ok params → params.Plain) → ∀ settings,
      (r.moment n).engine.contents.query settings className payload =
        (r'.moment n').engine.contents.query settings className payload) := by
  have hstores :
      Contents.Alike (r.engine Record.kept_sorted n).store
        (r'.engine Record.kept_sorted n').store := h
  exact ⟨fun objectId => hstores.readOne_eq className objectId payload,
    fun hp settings => hstores.query_eq settings className hp⟩

end DocumentStore
