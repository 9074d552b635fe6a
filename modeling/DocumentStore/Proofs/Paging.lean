import DocumentStore.Proofs.Lookup
import DocumentStore.Proofs.Ordering

/-!
Pages of a query. The filter, the order, the includes and the redirection of a query make one list
of what there is to show, the limit and the offset cut a window out of it, and the pages of one size
put one after the other are the list.
-/

namespace DocumentStore

namespace Contents

/--
The matches of a query on a class by their ids: each once, in the order that the sort keys ask for,
and where they tie in the order of creation.
-/
structure Lists (c : Contents) (target : String) (params : ReadParams) (ids : List String) :
    Prop where
  nodup : ids.Nodup
  mem_iff : ∀ id, id ∈ ids ↔ ∃ stored, c.fetch target id = some stored ∧
    (params.filter.getD .matchAll).holds c (matching c) target stored = .ok true
  sorted : ids.Pairwise fun id id' => ∃ stored stored', c.fetch target id = some stored ∧
    c.fetch target id' = some stored' ∧ compareBy params.sort stored stored' ≠ .gt
  stable :
    ∀ id id' stored stored', c.fetch target id = some stored → c.fetch target id' = some stored' →
      compareBy params.sort stored stored' = .eq → id ∈ ids → id' ∈ ids →
      [id, id'].Sublist (c.collection target).ids → [id, id'].Sublist ids

end Contents

namespace Collection

variable (c : Collection) (test : Record → Bool) (keys : List SortKey)

def sortedEntries : List (String × Record) :=
  (c.entries.filter fun e => test e.2).mergeSort fun a b => compareBy keys a.2 b.2 != .gt

theorem map_snd_sortedEntries :
    (c.sortedEntries test keys).map (·.2) = sortRecords keys (c.records.filter test) := by
  rw [sortedEntries, sortRecords, records, List.filter_map]
  exact List.map_mergeSort fun _ _ _ _ => rfl

theorem perm_sortedEntries :
    (c.sortedEntries test keys).Perm (c.entries.filter fun e => test e.2) :=
  List.mergeSort_perm _ _

theorem mem_sortedEntries {e : String × Record} :
    e ∈ c.sortedEntries test keys ↔ c.get? e.1 = some e.2 ∧ test e.2 = true := by
  rw [(c.perm_sortedEntries test keys).mem_iff, List.mem_filter, mem_entries_iff]

def sortedIds : List String := (c.sortedEntries test keys).map (·.1)

theorem mem_sortedIds {id : String} :
    id ∈ c.sortedIds test keys ↔ ∃ record, c.get? id = some record ∧ test record = true := by
  rw [sortedIds, List.mem_map]
  constructor
  · intro ⟨e, he, hid⟩
    rw [← hid]
    exact ⟨e.2, (c.mem_sortedEntries test keys).mp he⟩
  · intro ⟨record, hrecord⟩
    exact ⟨(id, record), (c.mem_sortedEntries test keys).mpr hrecord, rfl⟩

theorem nodup_sortedIds : (c.sortedIds test keys).Nodup := by
  have hperm := (c.perm_sortedEntries test keys).map (·.1)
  have hsub : ((c.entries.filter fun e => test e.2).map (·.1)).Sublist c.ids :=
    List.filter_sublist.map _
  exact hperm.nodup_iff.mpr (c.distinct.sublist hsub)

theorem sorted_sortedIds :
    (c.sortedIds test keys).Pairwise fun id id' => ∃ record record', c.get? id = some record ∧
      c.get? id' = some record' ∧ compareBy keys record record' ≠ .gt := by
  have hpairwise :
      (c.sortedEntries test keys).Pairwise fun a b => (compareBy keys a.2 b.2 != .gt) = true :=
    List.pairwise_mergeSort (fun a b d => compareBy_trans keys a.2 b.2 d.2)
      (fun a b => compareBy_total keys a.2 b.2) _
  rw [sortedIds, List.pairwise_map]
  refine hpairwise.imp_of_mem fun {a b} ha hb hab => ?_
  have hfound (e : String × Record) (he : e ∈ c.sortedEntries test keys) : c.get? e.1 = some e.2 :=
    ((c.mem_sortedEntries test keys).mp he).1
  exact ⟨a.2, b.2, hfound a ha, hfound b hb, by simpa using hab⟩

theorem pair_sublist_entries {id id' : String} {record record' : Record}
    (hid : c.get? id = some record) (hid' : c.get? id' = some record')
    (hcreated : [id, id'].Sublist c.ids) :
    [(id, record), (id', record')].Sublist c.entries := by
  obtain ⟨pair, hpair, hids⟩ := List.sublist_map_iff.mp hcreated
  have hsame : pair.map some = [(id, record), (id', record')].map some := by
    calc
      pair.map some = (pair.map (·.1)).map fun key => (c.get? key).map (key, ·) := by
        rw [List.map_map]
        refine List.map_congr_left fun e he => ?_
        have hget : c.get? e.1 = some e.2 := get?_of_mem (hpair.subset he)
        rw [Function.comp_apply, hget]
        rfl
      _ = [(id, record), (id', record')].map some := by
        rw [← hids, List.map_cons, List.map_cons, hid, hid']
        rfl
  rw [← (List.map_inj_right fun _ _ => Option.some.inj).mp hsame]
  exact hpair

theorem stable_sortedIds {id id' : String} {record record' : Record} (hid : c.get? id = some record)
    (hid' : c.get? id' = some record') (htie : compareBy keys record record' = .eq)
    (hmem : id ∈ c.sortedIds test keys) (hmem' : id' ∈ c.sortedIds test keys)
    (hcreated : [id, id'].Sublist c.ids) :
    [id, id'].Sublist (c.sortedIds test keys) := by
  have htest {key : String} {found : Record} (hf : c.get? key = some found)
      (hk : key ∈ c.sortedIds test keys) : test found = true := by
    obtain ⟨other, hother, ho⟩ := (c.mem_sortedIds test keys).mp hk
    rw [Option.some.inj (hf.symm.trans hother)]
    exact ho
  have hmatched : [(id, record), (id', record')].Sublist (c.entries.filter fun e => test e.2) := by
    have hfiltered := (c.pair_sublist_entries hid hid' hcreated).filter fun e => test e.2
    simp only [List.filter_cons, List.filter_nil, htest hid hmem, htest hid' hmem',
      if_true] at hfiltered
    exact hfiltered
  have hsorted : [(id, record), (id', record')].Sublist (c.sortedEntries test keys) :=
    List.pair_sublist_mergeSort (fun a b d => compareBy_trans keys a.2 b.2 d.2)
      (fun a b => compareBy_total keys a.2 b.2) (by rw [htie]; rfl) hmatched
  exact hsorted.map (·.1)

end Collection

structure Response.Shows (response : Response) (results : List Value) : Prop where
  status : response.status = 200
  results : response.body.field? "results" = some (.arr results)

namespace ReadParams

structure SameQuery (payload other : Value) : Prop where
  filter : payload.field? "where" = other.field? "where"
  includes : payload.field? "include" = other.field? "include"
  order : payload.field? "order" = other.field? "order"
  redirectKey : payload.field? "redirectClassNameForKey" = other.field? "redirectClassNameForKey"

def Counts (fields : Record) : Prop := (KeyMap.get? fields "count").any isOn = true

instance (fields : Record) : Decidable (Counts fields) := inferInstanceAs (Decidable (_ = _))

structure AsksPage (payload : Value) (size number : Nat) (fields : Record) : Prop where
  same : SameQuery payload (.obj fields)
  limit : window fields "limit" = .ok (some size)
  skip : ∃ offset, window fields "skip" = .ok offset ∧ offset.getD 0 = number * size
  shows : ¬ Counts fields

theorem ofPayload_eq_ok {payload : Value} {params : ReadParams}
    (h : ofPayload payload = .ok params) :
    readFilter (payload.field? "where") = .ok params.filter ∧
      params.includes = readIncludes (payload.field? "include") ∧
      params.sort = (((payload.field? "order").bind Value.asText?).map SortKey.parseOrder).getD [] ∧
      params.redirectKey = (payload.field? "redirectClassNameForKey").bind Value.asText? := by
  cases payload with
  | null =>
    obtain rfl : ({} : ReadParams) = params := Except.ok.inj h
    exact ⟨rfl, rfl, rfl, rfl⟩
  | obj fields =>
    simp only [ofPayload, bind_eq_ok_iff] at h
    obtain ⟨filter, hfilter, limit, -, offset, -, h⟩ := h
    obtain rfl := Except.ok.inj h
    exact ⟨hfilter, rfl, rfl, rfl⟩
  | _ => cases h

theorem ofPayload_of_sameQuery {payload : Value} {params : ReadParams} {fields : Record}
    {limit offset : Option Nat} (h : ofPayload payload = .ok params)
    (hs : SameQuery payload (.obj fields)) (hl : window fields "limit" = .ok limit)
    (ho : window fields "skip" = .ok offset) :
    ofPayload (.obj fields) =
      .ok { params with limit, offset, count := (KeyMap.get? fields "count").any isOn } := by
  have ⟨hfilter, hincludes, hsort, hredirect⟩ := ofPayload_eq_ok h
  rw [hs.filter] at hfilter
  rw [hs.includes] at hincludes
  rw [hs.order] at hsort
  rw [hs.redirectKey] at hredirect
  simp only [Value.field?] at hfilter hincludes hsort hredirect
  rw [ofPayload, hfilter, hl, ho, hincludes, hsort, hredirect]
  rfl

end ReadParams

namespace Contents

variable {c : Contents} {className target : String} {payload : Value} {params : ReadParams}
  {found : List Record}

theorem exists_lists (h : c.sortedMatches target params = .ok found) :
    ∃ ids, c.Lists target params ids ∧ found.map some = ids.map (c.fetch target) := by
  let test := passes ((params.filter.getD .matchAll).holds c (matching c) target)
  have hfound : found = sortRecords params.sort ((c.records target).filter test) := by
    rw [sortedMatches, matching_eq] at h
    cases hs :
      select ((params.filter.getD .matchAll).holds c (matching c) target) (c.records target) with
    | error fault =>
      rw [hs] at h
      cases h
    | ok selected =>
      rw [hs] at h
      rw [← eq_filter_of_select hs]
      exact (Except.ok.inj h).symm
  have hsnd := (c.collection target).map_snd_sortedEntries test params.sort
  refine ⟨(c.collection target).sortedIds test params.sort, ?_, ?_⟩
  · refine ⟨Collection.nodup_sortedIds _ _ _, fun id => ?_, Collection.sorted_sortedIds _ _ _, ?_⟩
    · simp only [Collection.mem_sortedIds, test, passes_iff]
      rfl
    · intro id id' stored stored' hf hf' htie hmem hmem' hcreated
      exact Collection.stable_sortedIds _ _ _ hf hf' htie hmem hmem' hcreated
  · rw [hfound]
    show (sortRecords params.sort ((c.collection target).records.filter test)).map some = _
    rw [← hsnd, Collection.sortedIds, List.map_map, List.map_map]
    exact List.map_congr_left fun e he => ((Collection.mem_sortedEntries _ _ _).mp he).1.symm

/-- All that the windows of a query show, in the order of its matches. -/
def listing (c : Contents) (target : String) (params : ReadParams) (found : List Record) :
    List Value :=
  found.map fun record => .obj (c.visible target (includeAll c params.includes record))

theorem map_some_listing {ids : List String} (h : found.map some = ids.map (c.fetch target)) :
    (c.listing target params found).map some =
      ids.map fun id => (c.shown? target id params.includes).map .obj := by
  calc
    (c.listing target params found).map some
        = (found.map some).map (Option.map fun record =>
          .obj (c.visible target (includeAll c params.includes record))) := by
          simp only [listing, List.map_map, Function.comp_def, Option.map_some]
    _ = ids.map fun id => (c.shown? target id params.includes).map .obj := by
          simp only [h, List.map_map, Function.comp_def, shown?, Option.map_map]

theorem page_eq_window (c : Contents) (settings : Settings) (target : String) (params : ReadParams)
    (found : List Record) :
    (c.page settings target params found).map .obj =
      ((c.listing target params found).drop (params.offset.getD 0)).take
        (settings.pageSize params.limit) := by
  rw [page, listing, List.map_map, List.map_take, List.map_drop]
  rfl

theorem query_shows (hparams : ReadParams.ofPayload payload = .ok params)
    (hfound : c.sortedMatches (c.targetClass className params) params = .ok found)
    (settings : Settings) :
    ∃ answer, c.query settings className payload = .ok answer ∧
      if params.count then answer.Shows [] ∧
      answer.body.field? "count" = some (.num (.ofNat found.length))
      else answer.Shows (((c.listing (c.targetClass className params) params found).drop
        (params.offset.getD 0)).take (settings.pageSize params.limit)) := by
  refine ⟨_, query_of_matches hparams hfound settings, ?_⟩
  rw [← page_eq_window]
  cases params.count with
  | true => cases params.redirectKey <;> exact ⟨⟨rfl, rfl⟩, rfl⟩
  | false => cases params.redirectKey <;> exact ⟨rfl, rfl⟩

theorem query_window (hparams : ReadParams.ofPayload payload = .ok params)
    (hfound : c.sortedMatches (c.targetClass className params) params = .ok found)
    (settings : Settings) {fields : Record} {limit offset : Option Nat}
    (hs : ReadParams.SameQuery payload (.obj fields))
    (hl : ReadParams.window fields "limit" = .ok limit)
    (ho : ReadParams.window fields "skip" = .ok offset) :
    ∃ answer, c.query settings className (.obj fields) = .ok answer ∧
      if ReadParams.Counts fields then
        answer.Shows [] ∧ answer.body.field? "count" = some (.num (.ofNat found.length))
      else answer.Shows
        (((c.listing (c.targetClass className params) params found).drop (offset.getD 0)).take
        (settings.pageSize limit)) :=
  query_shows (ReadParams.ofPayload_of_sameQuery hparams hs hl ho) hfound settings

end Contents

theorem flatMap_pages {α : Type} (items : List α) (size number : Nat) :
    (List.range number).flatMap (fun j => (items.drop (j * size)).take size) =
      items.take (number * size) := by
  induction number with
  | zero => simp
  | succ number ih =>
    rw [List.range_succ, List.flatMap_append, ih, List.flatMap_singleton, Nat.succ_mul,
      List.take_add]

namespace Engine

/-- Queries that differ from this one in the window only are answered from a listing: with a part of
it, or with its length. -/
def AnswersWindows (e : Engine) (nested : Serve) (className : String) (payload : Value)
    (listing : List Value) : Prop :=
  ∀ fields limit offset, ReadParams.SameQuery payload (.obj fields) →
    ReadParams.window fields "limit" = .ok limit → ReadParams.window fields "skip" = .ok offset →
    ∃ answer, serveWith nested (.query className (.obj fields)) e = some (.ok answer, e) ∧
      if ReadParams.Counts fields then
        answer.Shows [] ∧ answer.body.field? "count" = some (.num (.ofNat listing.length))
      else answer.Shows ((listing.drop (offset.getD 0)).take
        (min (limit.getD e.settings.defaultLimit) e.settings.maxLimit))

def PagesMakeUp (e : Engine) (nested : Serve) (className : String) (payload : Value)
    (listing : List Value) : Prop :=
  ∀ size number (pages : Nat → Record), size ≤ e.settings.maxLimit →
    listing.length ≤ number * size →
    (∀ j < number, ReadParams.AsksPage payload size j (pages j)) →
    ∃ shown : Nat → List Value,
      (∀ j < number, ∃ answer,
        serveWith nested (.query className (.obj (pages j))) e = some (.ok answer, e) ∧
        answer.Shows (shown j)) ∧
      (List.range number).flatMap shown = listing

variable {e : Engine} {nested : Serve} {className : String} {payload : Value} {response : Response}
  {listing : List Value}

theorem answersWindows_of_matches (nested : Serve) {params : ReadParams} {found : List Record}
    (hparams : ReadParams.ofPayload payload = .ok params)
    (hfound : e.contents.sortedMatches (e.contents.targetClass className params) params =
      .ok found) :
    e.AnswersWindows nested className payload
      (e.contents.listing (e.contents.targetClass className params) params found) := by
  intro fields limit offset hs hl ho
  obtain ⟨answer, hanswer, hshows⟩ := Contents.query_window hparams hfound e.settings hs hl ho
  rw [Contents.listing, List.length_map]
  exact ⟨answer, congrArg (fun outcome => some (outcome, e)) hanswer, hshows⟩

theorem AnswersWindows.pages (h : e.AnswersWindows nested className payload listing) :
    e.PagesMakeUp nested className payload listing := by
  intro size number pages hsize hlength hpages
  refine ⟨fun j => (listing.drop (j * size)).take size, fun j hj => ?_, ?_⟩
  · have hpage := hpages j hj
    obtain ⟨offset, hskip, hoffset⟩ := hpage.skip
    obtain ⟨answer, hserve, hanswer⟩ := h (pages j) (some size) offset hpage.same hpage.limit hskip
    rw [if_neg hpage.shows, hoffset, Option.getD_some, Nat.min_eq_left hsize] at hanswer
    exact ⟨answer, hserve, hanswer⟩
  · rw [flatMap_pages, List.take_of_length_le hlength]

/--
A query that does not fail has one listing, whatever its window: its matches, each once, in the
order that it asks for, each as a point read shows it. Windows are cut from that listing, a count is
its length, and its pages of one size make it up. No response holds more than its limit or the
default asks for, nor more than the largest page.
-/
theorem windows_share_one_listing
    (h : serveWith nested (.query className payload) e = some (.ok response, e)) :
    ∃ params results ids listing,
      ReadParams.ofPayload payload = .ok params ∧
      response.Shows results ∧
      results.length ≤ min (params.limit.getD e.settings.defaultLimit) e.settings.maxLimit ∧
      e.contents.Lists (e.contents.targetClass className params) params ids ∧
      listing.map some = (ids.map fun id =>
        (e.contents.shown? (e.contents.targetClass className params) id params.includes).map .obj) ∧
      e.AnswersWindows nested className payload listing ∧
      e.PagesMakeUp nested className payload listing := by
  have hquery : e.contents.query e.settings className payload = .ok response := by
    simpa [serveWith, Request.query] using h
  obtain ⟨params, hparams, found, hfound⟩ : ∃ params, ReadParams.ofPayload payload = .ok params ∧
      ∃ found,
        e.contents.sortedMatches (e.contents.targetClass className params) params = .ok found := by
    simp only [Contents.query, bind_eq_ok_iff] at hquery
    obtain ⟨params, hparams, found, hfound, -⟩ := hquery
    exact ⟨params, hparams, found, hfound⟩
  have hresponse : ∃ results, response.Shows results ∧
      results.length ≤ min (params.limit.getD e.settings.defaultLimit) e.settings.maxLimit := by
    obtain ⟨answer, hanswer, hshows⟩ := Contents.query_shows hparams hfound e.settings
    obtain rfl : answer = response := Except.ok.inj (hanswer.symm.trans hquery)
    split at hshows
    · exact ⟨[], hshows.1, Nat.zero_le _⟩
    · exact ⟨_, hshows, List.length_take_le _ _⟩
  obtain ⟨results, hresults, hlength⟩ := hresponse
  obtain ⟨ids, hlists, hids⟩ := Contents.exists_lists hfound
  have hwindows := answersWindows_of_matches nested hparams hfound
  exact ⟨params, results, ids, _, hparams, hresults, hlength, hlists,
    Contents.map_some_listing hids, hwindows, hwindows.pages⟩

def shelf : Engine where
  contents :=
    (({} : Contents).insert "Item" "1" [("name", .str "b")]).insert "Item" "2" [("name", .str "a")]

theorem sortedMatches_shelf :
    shelf.contents.sortedMatches "Item" { sort := [⟨"name", true⟩] } =
      .ok [[("name", .str "b")], [("name", .str "a")]] := by
  have hmatching : matching shelf.contents "Item" .matchAll =
      .ok [[("name", .str "b")], [("name", .str "a")]] := rfl
  show (matching shelf.contents "Item" .matchAll).map (sortRecords _) = _
  rw [hmatching]
  exact congrArg Except.ok (List.mergeSort_of_pairwise (by decide))

def byName : Value := .obj [("order", .str "-name")]

def onePerPage (skip : Nat) : Record :=
  [("limit", .num (.ofNat 1)), ("order", .str "-name"), ("skip", .num (.ofNat skip))]

theorem windows_share_one_listing_shelf :
    (∃ response, serveWith (serve 0) (.query "Item" byName) shelf = some (.ok response, shelf)) ∧
      (∀ j < 2, ReadParams.AsksPage byName 1 j (onePerPage j)) ∧
      ∃ listing, shelf.AnswersWindows (serve 0) "Item" byName listing ∧
        shelf.PagesMakeUp (serve 0) "Item" byName listing := by
  have hparams : ReadParams.ofPayload byName = .ok { sort := [⟨"name", true⟩] } := rfl
  obtain ⟨response, hresponse, -⟩ := Contents.query_shows hparams sortedMatches_shelf shelf.settings
  have hserve : serveWith (serve 0) (.query "Item" byName) shelf = some (.ok response, shelf) :=
    congrArg (fun outcome => some (outcome, shelf)) hresponse
  obtain ⟨params, results, ids, listing, -, -, -, -, -, hwindows, hpages⟩ :=
    windows_share_one_listing hserve
  refine ⟨⟨response, hserve⟩, fun j hj => ?_, listing, hwindows, hpages⟩
  have hj : j = 0 ∨ j = 1 := by omega
  rcases hj with rfl | rfl
  · exact ⟨⟨rfl, rfl, rfl, rfl⟩, rfl, ⟨_, rfl, rfl⟩, by decide⟩
  · exact ⟨⟨rfl, rfl, rfl, rfl⟩, rfl, ⟨_, rfl, rfl⟩, by decide⟩

end Engine

end DocumentStore
