import DocumentStore.Handle
import DocumentStore.Proofs.Paging
import DocumentStore.Proofs.Redirecting
import DocumentStore.Proofs.Updating

/-!
What a handle makes of responses. Every response of the engine decodes, so an operation of a handle
fails only where its request fails, and it loses nothing of the response. A count is the number of
records on the pages of its clause.
-/

namespace DocumentStore

theorem bind_eq_map {α β : Type} {x : Except Fault α} {f : α → Except Fault β} {g : α → β}
    (h : ∀ a, x = .ok a → f a = .ok (g a)) : x.bind f = x.map g := by
  cases x with
  | error fault => rfl
  | ok a => exact h a rfl

theorem Number.ofNat_eq_int {n : Nat} (h : n < 2 ^ 64) : ofNat n = .int n ⟨by omega, by omega⟩ := by
  have hfits : IntegerFits n := ⟨by omega, by omega⟩
  rw [ofNat, ofInt?, dif_pos hfits, Option.getD_some]

theorem Record.mapM_ofPayload (records : List Record) :
    (records.map Value.obj).mapM Record.ofPayload = .ok records := by
  induction records with
  | nil => rfl
  | cons record records ih =>
    rw [List.map_cons, List.mapM_cons, ih]
    rfl

def Response.HoldsObject (r : Response) : Prop := ∃ fields : Record, r.body = .obj fields

theorem Write.holdsObject_of_commit {write : Write} {record : Record} {e e' : Engine} {r : Response}
    (h : write.commit record e = some (.ok r, e')) : r.HoldsObject := by
  cases write with
  | create className fields =>
    simp only [commit] at h
    split at h
    · cases h
    · obtain ⟨⟨r', e₁⟩, hnew, heq⟩ := Option.map_eq_some_iff.mp h
      obtain ⟨id, ids, stored, -, -, -, hr⟩ := Engine.commitNew_eq_some hnew
      obtain rfl : r' = r := Except.ok.inj (Prod.mk.inj heq).1
      rw [hr]
      exact ⟨_, rfl⟩
  | update className objectId stored changes draft prepared =>
    simp only [commit, Option.some.injEq, Prod.mk.injEq, Except.ok.injEq] at h
    rw [← h.1]
    cases hf : e.contents.fetch className objectId with
    | none =>
      rw [Engine.commitChanges_of_missing _ hf]
      exact ⟨_, rfl⟩
    | some current =>
      obtain ⟨record', -, hcommit⟩ := Engine.commitChanges_of_stored ⟨record, draft.relations⟩ hf
      rw [hcommit]
      exact ⟨_, rfl⟩
  | delete className objectId stored =>
    simp only [commit, Option.some.injEq, Prod.mk.injEq, Except.ok.injEq] at h
    rw [← h.1]
    cases hf : e.contents.fetch className objectId with
    | none =>
      rw [Engine.commitRemoval_of_missing hf]
      exact ⟨_, rfl⟩
    | some current =>
      rw [Engine.commitRemoval_of_stored hf]
      exact ⟨_, rfl⟩

namespace Contents

def listed (c : Contents) (className : String) (clause : Value) : Except Fault (List Record) := do
  let filter ← ReadParams.readFilter (some clause)
  let found ← matching c className (filter.getD .matchAll)
  return found.map (c.visible className)

variable {c : Contents} {className objectId : String} {payload clause : Value} {r : Response}
  {settings : Settings}

theorem length_le_of_listed {records : List Record} (h : c.listed className clause = .ok records) :
    records.length ≤ (c.records className).length := by
  simp only [listed, bind_eq_ok_iff] at h
  obtain ⟨filter, -, found, hfound, hr⟩ := h
  rw [← Except.ok.inj hr, List.length_map]
  exact (sublist_of_matching hfound).length_le

theorem query_of_clause {count : Bool} {limit offset : Option Nat}
    (hparams : ReadParams.ofPayload payload =
      (ReadParams.readFilter (some clause)).map fun filter => { filter, count, limit, offset })
    (c : Contents) (settings : Settings) (className : String) :
    c.query settings className payload = (c.listed className clause).map fun records =>
      .ok (.obj (if count then [("count", .num (.ofNat records.length)), ("results", .arr [])]
        else [("results",
          .arr (((records.drop (offset.getD 0)).take (settings.pageSize limit)).map .obj))])) := by
  unfold query listed
  rw [hparams]
  cases ReadParams.readFilter (some clause) with
  | error fault => rfl
  | ok filter =>
    have htarget := c.targetClass_unredirected className { filter, count, limit, offset }
    have hmatches : c.sortedMatches className { filter, count, limit, offset } =
        matching c className (filter.getD .matchAll) :=
      sortedMatches_of_unsorted rfl c className
    show (c.sortedMatches (c.targetClass className _) _ >>= _) =
        Except.map _ (matching c className _ >>= _)
    rw [htarget, hmatches]
    cases matching c className (filter.getD .matchAll) with
    | error fault => rfl
    | ok found =>
      show Except.ok (Response.ok (.obj (
          if count then [("count", .num (.ofNat found.length)), _]
          else [("results", .arr ((c.page settings className _ found).map .obj))]))) =
        .ok (.ok (.obj (
          if count then [("count", .num (.ofNat (found.map (c.visible className)).length)), _]
          else [("results",
            .arr ((((found.map (c.visible className)).drop _).take _).map .obj))])))
      rw [page, List.length_map, ← List.map_drop, ← List.map_take]
      rfl

theorem exists_results_of_query (h : c.query settings className payload = .ok r) :
    ∃ records : List Record, r.body.field? "results" = some (.arr (records.map .obj)) := by
  have hquery := h
  simp only [query, bind_eq_ok_iff] at h
  obtain ⟨params, hparams, found, hfound, -⟩ := h
  obtain ⟨answer, hanswer, hshows⟩ := query_shows hparams hfound settings
  obtain rfl : answer = r := Except.ok.inj (hanswer.symm.trans hquery)
  split at hshows
  · exact ⟨[], hshows.1.results⟩
  · refine ⟨c.page settings (c.targetClass className params) params found, ?_⟩
    rw [page_eq_window]
    exact hshows.results

theorem holdsObject_of_query (h : c.query settings className payload = .ok r) : r.HoldsObject := by
  simp only [query, bind_eq_ok_iff] at h
  obtain ⟨params, -, found, -, hr⟩ := h
  rw [← Except.ok.inj hr]
  exact ⟨_, rfl⟩

theorem holdsObject_of_readOne (h : c.readOne className objectId payload = .ok r) :
    r.HoldsObject := by
  obtain ⟨params, -, ⟨-, hr⟩ | ⟨stored, -, hr⟩⟩ := readOne_eq_ok h
  · rw [hr]
    exact ⟨_, rfl⟩
  · rw [hr]
    exact ⟨_, rfl⟩

end Contents

namespace Engine

variable {e e' : Engine} {request : Request} {r : Response}

theorem holdsObject_of_prepare (h : e.prepare request = .inl (.ok r)) : r.HoldsObject := by
  obtain ⟨operation, className, objectId, payload⟩ := request
  cases operation with
  | create =>
    simp only [prepare] at h
    split at h <;> cases h
  | read =>
    cases objectId with
    | none => exact Contents.holdsObject_of_query (Sum.inl.inj h)
    | some id => exact Contents.holdsObject_of_readOne (Sum.inl.inj h)
  | update =>
    cases objectId with
    | none => cases h
    | some id =>
      rw [prepare_update_eq_inl h]
      exact ⟨_, rfl⟩
  | delete =>
    cases objectId with
    | none => cases h
    | some id =>
      simp only [prepare] at h
      split at h
      · rw [← Except.ok.inj (Sum.inl.inj h)]
        exact ⟨_, rfl⟩
      · cases h

theorem holdsObject_of_serveWith {nested : Serve}
    (h : serveWith nested request e = some (.ok r, e')) : r.HoldsObject := by
  obtain hp | ⟨write, answer, e₁, record, hp, hr, hanswer, hcommit⟩ := serveWith_eq_ok h
  · exact holdsObject_of_prepare hp
  · exact Write.holdsObject_of_commit hcommit

end Engine

namespace Harness

variable {depth : Nat} {h h' : Harness Engine} {className : String} {payload clause : Value}
  {r : Response}

theorem holdsObject_of_dispatch {operation : Operation} {objectId : Option String}
    (hd : h.dispatch (.engine depth) operation className objectId payload = some (.ok r, h')) :
    r.HoldsObject := by
  unfold dispatch send at hd
  split at hd
  · obtain ⟨⟨outcome, e'⟩, hserve, heq⟩ := Option.map_eq_some_iff.mp hd
    obtain rfl : outcome = .ok r := (Prod.mk.inj heq).1
    cases depth with
    | zero => exact Engine.holdsObject_of_serveWith hserve
    | succ depth => exact Engine.holdsObject_of_serveWith hserve
  · cases hd

theorem dispatch_query (depth : Nat) (h : Harness Engine) (className : String) (payload : Value) :
    h.dispatch (.engine depth) .read className none payload =
      some (
        if h.installed then h.state.contents.query h.state.settings className payload
        else .error .notInstalled, h) := by
  obtain ⟨state, installed⟩ := h
  cases installed with
  | true => cases depth <;> rfl
  | false => rfl

theorem query_of_dispatch
    (hd : h.dispatch (.engine depth) .read className none payload = some (.ok r, h')) :
    h.state.contents.query h.state.settings className payload = .ok r := by
  have houtcome :=
    (Prod.mk.inj (Option.some.inj ((dispatch_query depth h className payload).symm.trans hd))).1
  split at houtcome
  · exact houtcome
  · cases houtcome

def listed (h : Harness Engine) (className : String) (clause : Value) :
    Except Fault (List Record) :=
  if h.installed then h.state.contents.listed className clause else .error .notInstalled

theorem length_le_of_listed {records : List Record} (hl : h.listed className clause = .ok records) :
    records.length ≤ (h.state.contents.records className).length := by
  rw [listed] at hl
  split at hl
  · exact Contents.length_le_of_listed hl
  · cases hl

end Harness

namespace Handle

section Decoding

variable {σ α : Type} {r : Response}

/--
An operation gives what its request comes to: no answer, the same fault or, of a response, what
`reads` says of it. It leaves the harness as the request does.
-/
inductive Conveys (reads : Response → α → Prop) :
    Option (Outcome × Harness σ) → Answer σ α → Prop where
  | unanswered : Conveys reads none none
  | fault (fault : Fault) (h : Harness σ) :
      Conveys reads (some (.error fault, h)) (some (.error fault, h))
  | response {r : Response} {a : α} (h : Harness σ) (decoded : reads r a) :
      Conveys reads (some (.ok r, h)) (some (.ok a, h))

theorem conveys_ask {handle : Handle σ} {operation : Operation} {objectId : Option String}
    {payload : Value} {decode : Response → Except Fault α} {reads : Response → α → Prop}
    {h : Harness σ}
    (hdecode : ∀ r h', h.dispatch handle.backend operation handle.className objectId payload =
      some (.ok r, h') → ∃ a, decode r = .ok a ∧ reads r a) :
    Conveys reads (h.dispatch handle.backend operation handle.className objectId payload)
      (handle.ask operation objectId payload decode h) := by
  unfold ask
  cases hd : h.dispatch handle.backend operation handle.className objectId payload with
  | none => exact .unanswered
  | some result =>
    obtain ⟨outcome, h'⟩ := result
    cases outcome with
    | error fault => exact .fault fault h'
    | ok r =>
      obtain ⟨a, ha, hreads⟩ := hdecode r h' hd
      show Conveys reads (some (.ok r, h')) (some (decode r, h'))
      rw [ha]
      exact .response h' hreads

structure Finds (r : Response) (record? : Option Record) : Prop where
  none_iff : record? = none ↔ r.status = 404
  body : ∀ record, record? = some record → r.body = .obj record

theorem exists_found (h : r.HoldsObject) : ∃ record?, found r = .ok record? ∧ Finds r record? := by
  obtain ⟨fields, hbody⟩ := h
  unfold found
  by_cases hs : r.status = 404
  · exact ⟨none, if_pos (beq_iff_eq.mpr hs), ⟨fun _ => hs, fun _ => rfl⟩, nofun⟩
  · refine ⟨some fields, ?_, ⟨nofun, fun hn => absurd hn hs⟩, fun record hr => ?_⟩
    · rw [Response.isNotFound, beq_eq_false_iff_ne.mpr hs, hbody]
      rfl
    · rw [hbody, Option.some.inj hr]

theorem results_of_objects {records : List Record}
    (h : r.body.field? "results" = some (.arr (records.map .obj))) (className : String) :
    results className r = .ok records := by
  rw [results, h]
  exact Record.mapM_ofPayload records

theorem counted_of_nat {n : Nat} (hn : n < 2 ^ 64)
    (h : r.body.field? "count" = some (.num (.ofNat n))) (className : String) :
    counted className r = .ok n := by
  rw [counted, h, Number.ofNat_eq_int hn]
  rfl

/-- What the operations on records make of the responses to their requests. -/
structure Faithful (handle : Handle σ) (h : Harness σ) : Prop where
  create : ∀ fields, Conveys (fun r record => r.body = .obj record)
    (h.dispatch handle.backend .create handle.className none fields) (handle.create fields h)
  getWith : ∀ objectId params, Conveys Finds
    (h.dispatch handle.backend .read handle.className (some objectId) params)
      (handle.getWith objectId params h)
  get : ∀ objectId, Conveys Finds
    (h.dispatch handle.backend .read handle.className (some objectId) .null) (handle.get objectId h)
  update : ∀ objectId fields, Conveys
    (fun r changed? => ∃ found?, Finds r found? ∧
      changed? = found?.map fun changed => KeyMap.insert changed "objectId" (.str objectId))
    (h.dispatch handle.backend .update handle.className (some objectId) fields)
      (handle.update objectId fields h)
  delete : ∀ objectId, Conveys (fun r existed => existed = false ↔ r.status = 404)
    (h.dispatch handle.backend .delete handle.className (some objectId) .null)
      (handle.delete objectId h)
  find : ∀ params, Conveys
    (fun r records => r.body.field? "results" = some (.arr (records.map .obj)))
    (h.dispatch handle.backend .read handle.className none params) (handle.find params h)

end Decoding

def countOf (clause : Value) : Value := .obj [("count", .bool true), ("where", clause)]

def pageOf (clause : Value) (limit : Option Nat) (skip : Nat) : Value :=
  .obj ((limit.toList.map fun n => ("limit", .num (.ofNat n))) ++ [("skip", .num (.ofNat skip)),
    ("where", clause)])

theorem ofPayload_countOf (clause : Value) :
    ReadParams.ofPayload (countOf clause) =
      (ReadParams.readFilter (some clause)).map fun filter => { filter, count := true } := by
  show (ReadParams.readFilter (some clause) >>= _) = _
  cases ReadParams.readFilter (some clause) <;> rfl

theorem ofPayload_pageOf (clause : Value) {limit : Option Nat} {skip : Nat}
    (hlimit : ∀ n ∈ limit, n < 2 ^ 64) (hskip : skip < 2 ^ 64) :
    ReadParams.ofPayload (pageOf clause limit skip) =
      (ReadParams.readFilter (some clause)).map fun filter =>
        { filter, limit, offset := some skip } := by
  cases limit with
  | none =>
    rw [pageOf, Number.ofNat_eq_int hskip]
    show (ReadParams.readFilter (some clause) >>= _) = _
    cases ReadParams.readFilter (some clause) <;> rfl
  | some n =>
    rw [pageOf, Number.ofNat_eq_int hskip, Option.toList_some, List.map_singleton,
      Number.ofNat_eq_int (hlimit n rfl)]
    show (ReadParams.readFilter (some clause) >>= _) = _
    cases ReadParams.readFilter (some clause) <;> rfl

section Pages

variable {σ : Type} {handle : Handle σ} {page : Nat → Value} {skip : Nat} {h : Harness σ}
  {outcome outcome' : Except Fault (List Record)}

/--
What comes of asking for one page after the other, each after as many records as those before it
have shown, until a page is empty or fails.
-/
inductive Paged (handle : Handle σ) (page : Nat → Value) :
    Nat → Harness σ → Except Fault (List Record) → Prop where
  | failed {skip : Nat} {h h' : Harness σ} {fault : Fault}
      (asked : handle.find (page skip) h = some (.error fault, h')) :
      Paged handle page skip h (.error fault)
  | ended {skip : Nat} {h h' : Harness σ} (asked : handle.find (page skip) h = some (.ok [], h')) :
      Paged handle page skip h (.ok [])
  | more {skip : Nat} {h h' : Harness σ} {records : List Record} {rest : Except Fault (List Record)}
      (asked : handle.find (page skip) h = some (.ok records, h')) (shown : records ≠ [])
      (go : Paged handle page (skip + records.length) h' rest) :
      Paged handle page skip h (rest.map (records ++ ·))

theorem Paged.unique (hp : Paged handle page skip h outcome)
    (hp' : Paged handle page skip h outcome') :
    outcome' = outcome := by
  induction hp generalizing outcome' with
  | failed asked =>
    cases hp' with
    | failed asked' =>
      cases asked.symm.trans asked'
      rfl
    | ended asked' => cases asked.symm.trans asked'
    | more asked' shown' go' => cases asked.symm.trans asked'
  | ended asked =>
    cases hp' with
    | failed asked' => cases asked.symm.trans asked'
    | ended asked' => rfl
    | more asked' shown' go' =>
      cases asked.symm.trans asked'
      exact absurd rfl shown'
  | more asked shown go ih =>
    cases hp' with
    | failed asked' => cases asked.symm.trans asked'
    | ended asked' =>
      cases asked.symm.trans asked'
      exact absurd rfl shown
    | more asked' shown' go' =>
      cases asked.symm.trans asked'
      rw [ih go']

theorem paged_of_windows {size : Nat} {records : List Record} (hsize : 0 < size)
    (hfind : ∀ before after, before ++ after = records →
      handle.find (page before.length) h = some (.ok (after.take size), h)) :
    ∀ before after, before ++ after = records → Paged handle page before.length h (.ok after) := by
  intro before after hsplit
  -- The number of records left decreases, since no page that has some of them to show is empty.
  induction hleft : after.length using Nat.strongRecOn generalizing before after with
  | ind left ih =>
    have hasked := hfind before after hsplit
    by_cases hempty : after = []
    · rw [hempty] at hasked ⊢
      exact .ended (hasked.trans (by rw [List.take_nil]))
    · have hshown : after.take size ≠ [] := by
        rw [ne_eq, List.take_eq_nil_iff, not_or]
        exact ⟨Nat.ne_of_gt hsize, hempty⟩
      have hshorter : (after.drop size).length < left := by
        have hlength := List.length_pos_iff.mpr hempty
        rw [List.length_drop]
        omega
      have hgo := ih _ hshorter (before ++ after.take size) (after.drop size)
        (by rw [List.append_assoc, List.take_append_drop, hsplit]) rfl
      rw [List.length_append] at hgo
      have hjoined := Paged.more hasked hshown hgo
      rw [Except.map, List.take_append_drop] at hjoined
      exact hjoined

end Pages

/--
The counts of a handle: each is the integer in the response, and it is the number of records on the
pages of its clause, which come to an end. Where the pages fail, the count fails alike.
-/
structure CountsPages (handle : Handle Engine) (h : Harness Engine) : Prop where
  count : ∀ clause, Conveys
    (fun r n => ∃ fits : IntegerFits (n : Nat),
      r.body.field? "count" = some (.num (.int n fits)))
    (h.dispatch handle.backend .read handle.className none (countOf clause)) (handle.count clause h)
  pages : ∀ clause limit, (∀ n ∈ limit, n < 2 ^ 64) → 0 < h.state.settings.pageSize limit →
    ∃ outcome, (∀ outcome', Paged handle (pageOf clause limit) 0 h outcome' ↔ outcome' = outcome) ∧
      handle.count clause h = some (outcome.map List.length, h)

def overEngine (depth : Nat) (className : String) : Handle Engine := ⟨.engine depth, className⟩

section OverEngine

variable (depth : Nat) (className : String) (h : Harness Engine)

theorem ask_of_clause {α : Type} {payload clause : Value} {count : Bool} {limit offset : Option Nat}
    (hparams : ReadParams.ofPayload payload =
      (ReadParams.readFilter (some clause)).map fun filter => { filter, count, limit, offset })
    (decode : Response → Except Fault α) :
    (overEngine depth className).ask .read none payload decode h =
      some ((h.listed className clause).bind fun records => decode (.ok (.obj (
        if count then [("count", .num (.ofNat records.length)), ("results", .arr [])]
        else [("results",
          .arr (((records.drop (offset.getD 0)).take (h.state.settings.pageSize limit)).map
            .obj))]))), h) := by
  show (h.dispatch (.engine depth) .read className none payload).map _ = _
  rw [Harness.dispatch_query, Harness.listed]
  cases h.installed with
  | false => rfl
  | true =>
    rw [if_pos rfl, if_pos rfl, Contents.query_of_clause hparams]
    cases h.state.contents.listed className clause <;> rfl

theorem find_pageOf (clause : Value) {limit : Option Nat} {skip : Nat}
    (hlimit : ∀ n ∈ limit, n < 2 ^ 64) (hskip : skip < 2 ^ 64) :
    (overEngine depth className).find (pageOf clause limit skip) h =
      some ((h.listed className clause).map fun records =>
        (records.drop skip).take (h.state.settings.pageSize limit), h) := by
  have hask :=
    ask_of_clause depth className h (ofPayload_pageOf clause hlimit hskip) (results className)
  rw [bind_eq_map fun records _ => results_of_objects rfl className] at hask
  exact hask

theorem count_eq (clause : Value) (hsize : (h.state.contents.records className).length < 2 ^ 64) :
    (overEngine depth className).count clause h =
      some ((h.listed className clause).map List.length, h) := by
  have hask := ask_of_clause depth className h (ofPayload_countOf clause) (counted className)
  rw [bind_eq_map fun records hl =>
    counted_of_nat (Nat.lt_of_le_of_lt (Harness.length_le_of_listed hl) hsize) rfl className]
    at hask
  exact hask

theorem faithful : (overEngine depth className).Faithful h where
  create fields := conveys_ask fun r h' hd => by
    obtain ⟨record, hbody⟩ := Harness.holdsObject_of_dispatch hd
    exact ⟨record, by rw [hbody]; rfl, hbody⟩
  getWith objectId params :=
    conveys_ask fun r h' hd => exists_found (Harness.holdsObject_of_dispatch hd)
  get objectId := conveys_ask fun r h' hd => exists_found (Harness.holdsObject_of_dispatch hd)
  update objectId fields := conveys_ask fun r h' hd => by
    obtain ⟨found?, hfound, hfinds⟩ := exists_found (Harness.holdsObject_of_dispatch hd)
    exact ⟨_, by rw [hfound]; rfl, found?, hfinds, rfl⟩
  delete objectId := conveys_ask fun r h' hd => ⟨_, rfl, by simp [Response.isNotFound]⟩
  find params := conveys_ask fun r h' hd => by
    obtain ⟨records, hrecords⟩ := Contents.exists_results_of_query (Harness.query_of_dispatch hd)
    exact ⟨records, results_of_objects hrecords className, hrecords⟩

theorem countsPages (hsize : (h.state.contents.records className).length < 2 ^ 64) :
    (overEngine depth className).CountsPages h where
  count clause := conveys_ask fun r h' hd => by
    have hquery : h.state.contents.query h.state.settings className (countOf clause) = .ok r :=
      Harness.query_of_dispatch hd
    rw [Contents.query_of_clause (ofPayload_countOf clause), map_eq_ok_iff] at hquery
    obtain ⟨records, hlisted, rfl⟩ := hquery
    have hlength := Nat.lt_of_le_of_lt (Contents.length_le_of_listed hlisted) hsize
    refine ⟨records.length, counted_of_nat hlength rfl className, ⟨by omega, by omega⟩, ?_⟩
    exact congrArg (fun n => some (Value.num n)) (Number.ofNat_eq_int hlength)
  pages clause limit hlimit hpage := by
    have hcount := count_eq depth className h clause hsize
    have hfind (skip : Nat) (hskip : skip < 2 ^ 64) :=
      find_pageOf depth className h clause hlimit hskip
    suffices hpaged :
        Paged (overEngine depth className) (pageOf clause limit) 0 h
          (h.listed className clause) from
      ⟨_, fun outcome' => ⟨hpaged.unique, fun heq => heq ▸ hpaged⟩, hcount⟩
    cases hlisted : h.listed className clause with
    | error fault =>
      rw [hlisted] at hfind
      exact .failed (hfind 0 (by decide))
    | ok records =>
      rw [hlisted] at hfind
      have hlength := Nat.lt_of_le_of_lt (Harness.length_le_of_listed hlisted) hsize
      refine paged_of_windows hpage (fun before after hsplit => ?_) [] records rfl
      obtain rfl : before ++ after = records := hsplit
      rw [List.length_append] at hlength
      rw [hfind before.length (by omega), Except.map, List.drop_left]

/--
A handle over the engine adds no failure and loses nothing. Each of its operations fails exactly
where its request does, and with the same fault; all other responses decode. A record is the body of
its response, nothing comes of 404 alone, and what is found is the results in their order. A count,
of a class whose size fits a word, is the number of records on the pages of its clause, read to the
end in pages of any size.
-/
theorem faithful_over_engine :
    (overEngine depth className).Faithful h ∧
      ((h.state.contents.records className).length < 2 ^ 64 →
        (overEngine depth className).CountsPages h) :=
  ⟨faithful depth className h, countsPages depth className h⟩

end OverEngine

def stocked : Harness Engine := { state := Engine.shelf, installed := true }

def named : Value := .obj [("name", .obj [("$exists", .bool true)])]

theorem faithful_over_engine_stocked :
    (stocked.state.contents.records "Item").length < 2 ^ 64 ∧ (∀ n ∈ some 1, n < 2 ^ 64) ∧
      0 < stocked.state.settings.pageSize (some 1) ∧ (overEngine 0 "Item").Faithful stocked ∧
      ∃ records, Paged (overEngine 0 "Item") (pageOf named (some 1)) 0 stocked (.ok records) ∧
        records.length = 2 ∧
        (overEngine 0 "Item").count named stocked = some (.ok 2, stocked) := by
  have hlimit : ∀ n ∈ some 1, n < 2 ^ 64 := by decide
  have hsize : (stocked.state.contents.records "Item").length < 2 ^ 64 := by decide
  have hlisted : stocked.listed "Item" named = .ok [[("name", .str "b")], [("name", .str "a")]] :=
    rfl
  have hcount : (overEngine 0 "Item").count named stocked = some (.ok 2, stocked) := by
    rw [count_eq 0 "Item" stocked named hsize, hlisted]
    rfl
  obtain ⟨hfaithful, hcounts⟩ := faithful_over_engine 0 "Item" stocked
  obtain ⟨outcome, hpaged, hlength⟩ := (hcounts hsize).pages named (some 1) hlimit (by decide)
  rw [hcount] at hlength
  obtain ⟨records, rfl, hrecords⟩ := map_eq_ok_iff.mp (Prod.mk.inj (Option.some.inj hlength)).1.symm
  exact ⟨hsize, hlimit, by decide, hfaithful, records, (hpaged _).mpr rfl, hrecords, hcount⟩

end Handle

end DocumentStore
