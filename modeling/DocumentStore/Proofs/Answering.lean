import DocumentStore.Proofs.Census
import DocumentStore.Proofs.Failing
import DocumentStore.Proofs.Updating

/-!
What writes answer, and what they leave alone. A create and an update answer with the record as the
next point read shows it, and beside the record and the mask of its class a write leaves the store
to whoever comes next as its hook has left it.
-/

namespace DocumentStore

theorem KeyMap.without_comm {α : Type} (m : KeyMap α) (keys keys' : List String) :
    without (without m keys) keys' = without (without m keys') keys := by
  simp only [without, List.filter_filter, Bool.and_comm]

namespace Contents

theorem collection?_setCollection (c : Contents) (className other : String) (records : Collection) :
    (c.setCollection className records).collection? other =
      if other = className then some records else c.collection? other :=
  KeyMap.get?_insert c.classes className other records

theorem collection?_hide (c : Contents) (className other : String) (fields : List String) :
    (c.hide className fields).collection? other = c.collection? other := by
  rw [collection?, classes_hide, collection?]

theorem mask?_hide_of_ne (c : Contents) {className other : String} (fields : List String)
    (h : other ≠ className) :
    (c.hide className fields).mask? other = c.mask? other := by
  unfold hide
  split
  · rfl
  · exact KeyMap.get?_insert_of_ne c.masks _ h

/-- Two contents differ in one record at most, and in the mask of its class. The other records stand
in the same order. -/
structure DifferOnlyAt (c c' : Contents) (className objectId : String) : Prop where
  collections : ∀ other, other ≠ className → c'.collection? other = c.collection? other
  masks : ∀ other, other ≠ className → c'.mask? other = c.mask? other
  records : ∀ other, other ≠ objectId → c'.fetch className other = c.fetch className other
  order : (c'.collection className).ids.filter (· ≠ objectId) =
    (c.collection className).ids.filter (· ≠ objectId)

theorem differOnlyAt_insert (c : Contents) (className objectId : String) (fields : List String)
    (record : Record) :
    c.DifferOnlyAt ((c.hide className fields).insert className objectId record)
      className objectId where
  collections other h := by rw [insert, collection?_setCollection, if_neg h, collection?_hide]
  masks other h := c.mask?_hide_of_ne fields h
  records other h := by
    rw [fetch_insert, if_neg fun heq => h heq.2, fetch_hide]
  order := by
    rw [ids_insert, if_pos rfl, collection_hide]
    by_cases hm : objectId ∈ (c.collection className).ids
    · rw [Collection.ids_insert_of_mem record hm]
    · rw [Collection.ids_insert_of_notMem record hm, List.filter_append]
      simp

theorem differOnlyAt_erase (c : Contents) (className objectId : String) :
    c.DifferOnlyAt (c.erase className objectId) className objectId where
  collections other h := by rw [erase, collection?_setCollection, if_neg h]
  masks _ _ := rfl
  records other h := by
    rw [fetch_erase, if_neg fun heq => h heq.2]
  order := by
    rw [ids_erase, if_pos rfl, Collection.ids_erase, List.filter_filter]
    simp only [Bool.and_self]

end Contents

namespace Engine

variable {nested : Serve} {e e₁ e' : Engine} {request : Request} {write : Write}
  {response : Response} {className objectId : String} {payload : Value}

inductive Prepares (e : Engine) : Request → Write → Prop where
  | create {className : String} {objectId : Option String} {payload : Value} {fields : Record}
      (given : Record.ofPayload payload = .ok fields) :
      Prepares e ⟨.create, className, objectId, payload⟩ (.create className fields)
  | update {className objectId : String} {payload : Value} {stored changes : Record} {draft : Draft}
      (found : e.contents.fetch className objectId = some stored)
      (given : Record.ofPayload payload = .ok changes)
      (prepared : Draft.ofChanges stored changes = .ok draft) :
      Prepares e (.update className objectId payload)
        (.update className objectId stored changes draft prepared)
  | delete {className objectId : String} {payload : Value} {stored : Record}
      (found : e.contents.fetch className objectId = some stored) :
      Prepares e ⟨.delete, className, some objectId, payload⟩ (.delete className objectId stored)

theorem prepares_of_prepare (h : e.prepare request = .inr write) : e.Prepares request write := by
  obtain ⟨operation, className, objectId, payload⟩ := request
  cases operation with
  | create =>
    simp only [prepare] at h
    split at h
    · cases h
    · rename_i fields hp
      obtain rfl := Sum.inr.inj h
      exact .create hp
  | read => cases objectId <;> cases h
  | update =>
    cases objectId with
    | none => cases h
    | some id =>
      obtain ⟨stored, changes, draft, prepared, hf, hp, rfl⟩ := prepare_update_eq_inr h
      exact .update hf hp prepared
  | delete =>
    cases objectId with
    | none => cases h
    | some id =>
      simp only [prepare] at h
      split at h
      · cases h
      · rename_i stored hf
        obtain rfl := Sum.inr.inj h
        exact .delete hf

theorem not_isSuccess_of_prepare (h : e.prepare request = .inl (.ok response))
    (hw : request.operation ≠ .read) :
    response.isSuccess = false := by
  obtain ⟨operation, className, objectId, payload⟩ := request
  cases operation with
  | create =>
    simp only [prepare] at h
    split at h <;> cases h
  | read => exact absurd rfl hw
  | update =>
    cases objectId with
    | none => cases h
    | some id => rw [prepare_update_eq_inl h, Response.isSuccess_notFound]
  | delete =>
    cases objectId with
    | none => cases h
    | some id =>
      simp only [prepare] at h
      split at h
      · obtain rfl := Except.ok.inj (Sum.inl.inj h)
        rfl
      · cases h

/-- The engine as the hook of a request has left it; as the request has found it, where the request
reaches no hook. -/
def HookLeaves (nested : Serve) (request : Request) (e e₁ : Engine) : Prop :=
  (e.reached? request = none → e₁ = e) ∧
  ∀ hook call, e.reached? request = some (hook, call) →
    ∃ answer, (hook call).run nested e = some (answer, e₁)

theorem hookLeaves_of_run (hp : e.prepare request = .inr write) {answer : HookAnswer}
    (hr : (e.hookScript write.call).run nested e = some (answer, e₁)) :
    HookLeaves nested request e e₁ := by
  unfold HookLeaves
  rw [reached?_of_write hp]
  unfold hookScript at hr
  cases hk : e.hooks.get? write.call.className write.call.kind with
  | none =>
    simp only [hk, Script.run, Option.some.injEq, Prod.mk.injEq] at hr
    exact ⟨fun _ => hr.2.symm, fun hook call hc => by cases hc⟩
  | some hook =>
    simp only [hk] at hr
    refine ⟨fun hnone => (by cases hnone), fun hook' call hc => ?_⟩
    obtain ⟨rfl, rfl⟩ := Prod.mk.inj (Option.some.inj hc)
    exact ⟨answer, hr⟩

theorem exists_commit_of_success (h : serveWith nested request e = some (.ok response, e'))
    (hw : request.operation ≠ .read) (hs : response.isSuccess = true) :
    ∃ write e₁ record, e.Prepares request write ∧ HookLeaves nested request e e₁ ∧
      write.commit record e₁ = some (.ok response, e') := by
  obtain hp | ⟨write, answer, e₁, record, hp, hr, hanswer, hcommit⟩ := serveWith_eq_ok h
  · cases (not_isSuccess_of_prepare hp hw).symm.trans hs
  · exact ⟨write, e₁, record, prepares_of_prepare hp, hookLeaves_of_run hp hr, hcommit⟩

/-- Beside the clock and the ids drawn, two engines differ in one record and in the mask of its
class. -/
structure CommitsAt (e e' : Engine) (className objectId : String) : Prop where
  contents : e.contents.DifferOnlyAt e'.contents className objectId
  rest : e' = { e with contents := e'.contents, clock := e'.clock, ids := e'.ids }

def ReadsAs (e : Engine) (className objectId : String) (body : Value) : Prop :=
  ∀ nested, serveWith nested (.get className objectId) e = some (.ok (.ok body), e)

theorem readsAs_of_insert {c : Contents} {stored : Record}
    (h : e.contents = c.insert className objectId stored) :
    e.ReadsAs className objectId (.obj (e.contents.visible className stored)) := by
  have hf : e.contents.fetch className objectId = some stored := by
    rw [h, Contents.fetch_insert, if_pos ⟨rfl, rfl⟩]
  have hread : e.contents.readOne className objectId .null =
      .ok (.ok (.obj (e.contents.visible className stored))) := by
    unfold Contents.readOne
    rw [hf]
    rfl
  intro nested
  exact congrArg (fun outcome => some (outcome, e)) hread

theorem eq_of_objectId?_visible {stored : Record}
    (hid : KeyMap.get? stored "objectId" = some (.str objectId)) {c : Contents} {id : String}
    (h : (Value.obj (c.visible className stored)).objectId? = some id) : id = objectId := by
  have hfield :
      (KeyMap.get? (c.visible className stored) "objectId").bind Value.asText? = some id := h
  rw [Contents.get?_visible] at hfield
  split at hfield
  · cases hfield
  · rw [hid] at hfield
    exact (Option.some.inj hfield).symm

/-- What a request that writes has answered and done to the engine that its hook has left. -/
structure Reports (request : Request) (e₁ e' : Engine) (objectId : String) (response : Response) :
    Prop where
  commitsAt : e₁.CommitsAt e' request.className objectId
  created : request.operation = .create → response.status = 201 ∧
    objectId ∉ (e₁.contents.collection request.className).ids ∧
      e'.ReadsAs request.className objectId response.body ∧
    ∀ id, response.body.objectId? = some id → id = objectId
  updated : request.operation = .update → response.status = 200 ∧ request.objectId = some objectId ∧
    ∃ shown, e'.ReadsAs request.className objectId (.obj shown) ∧
      response.body = .obj (KeyMap.without shown ["objectId", "createdAt"])
  deleted : request.operation = .delete → response.status = 200 ∧ request.objectId = some objectId ∧
    e'.contents.fetch request.className objectId = none

theorem reports_commitNew {objectId? : Option String} {draft : Draft}
    (h : e₁.commitNew className draft = some (response, e')) :
    ∃ objectId, Reports ⟨.create, className, objectId?, payload⟩ e₁ e' objectId response := by
  obtain ⟨id, ids, record, hid, hstored, he, rfl⟩ := commitNew_eq_some h
  have hread : e'.ReadsAs className id (.obj (e'.contents.visible className record)) :=
    readsAs_of_insert (by rw [he])
  have hnamed : ∀ other, (Value.obj (e'.contents.visible className record)).objectId? = some other →
      other = id :=
    fun other ho => eq_of_objectId?_visible hstored.objectId ho
  subst he
  exact ⟨id, ⟨Contents.differOnlyAt_insert .., rfl⟩,
    fun _ => ⟨rfl, (IdSupply.next?_eq_some hid).1, hread, hnamed⟩, nofun, nofun⟩

theorem reports_commitChanges {draft : Draft}
    (h : e₁.commitChanges className objectId draft = (response, e'))
    (hs : response.isSuccess = true) :
    Reports (.update className objectId payload) e₁ e' objectId response := by
  cases hf : e₁.contents.fetch className objectId with
  | none =>
    rw [commitChanges_of_missing draft hf] at h
    obtain ⟨rfl, -⟩ := Prod.mk.inj h
    cases Response.isSuccess_notFound.symm.trans hs
  | some current =>
    obtain ⟨record, -, hc⟩ := commitChanges_of_stored draft hf
    rw [hc] at h
    obtain ⟨rfl, rfl⟩ := Prod.mk.inj h
    refine ⟨⟨Contents.differOnlyAt_insert .., rfl⟩, nofun,
      fun _ => ⟨rfl, rfl, _, readsAs_of_insert rfl, ?_⟩, nofun⟩
    -- The commit leaves the two fields out first and the hidden fields after them; a read shows the
    -- record without the latter.
    exact congrArg Value.obj (KeyMap.without_comm record _ _)

theorem reports_commitRemoval (h : e₁.commitRemoval className objectId = (response, e'))
    (hs : response.isSuccess = true) :
    Reports ⟨.delete, className, some objectId, payload⟩ e₁ e' objectId response := by
  cases hf : e₁.contents.fetch className objectId with
  | none =>
    rw [commitRemoval_of_missing hf] at h
    obtain ⟨rfl, -⟩ := Prod.mk.inj h
    cases Response.isSuccess_notFound.symm.trans hs
  | some current =>
    rw [commitRemoval_of_stored hf] at h
    obtain ⟨rfl, rfl⟩ := Prod.mk.inj h
    refine ⟨⟨Contents.differOnlyAt_erase .., rfl⟩, nofun, nofun, fun _ => ⟨rfl, rfl, ?_⟩⟩
    exact (Contents.fetch_erase ..).trans (if_pos ⟨rfl, rfl⟩)

/--
A write that succeeds reports the record that it has stored. What a create answers is what a read of
the new record then answers, and what an update answers is that too, but for the id and the time of
creation. Either of them, and a delete, changes one record of the engine that its hook has left, and
the mask of the record's class; all other records stand as they were, in their order.
-/
theorem success_reports_record (h : serveWith nested request e = some (.ok response, e'))
    (hw : request.operation ≠ .read) (hs : response.isSuccess = true) :
    ∃ e₁ objectId, HookLeaves nested request e e₁ ∧ Reports request e₁ e' objectId response := by
  obtain ⟨write, e₁, record, hprepares, hleaves, hcommit⟩ := exists_commit_of_success h hw hs
  cases hprepares with
  | create given =>
    simp only [Write.commit] at hcommit
    split at hcommit
    · cases hcommit
    · obtain ⟨⟨response', e₂⟩, hnew, heq⟩ := Option.map_eq_some_iff.mp hcommit
      obtain ⟨rfl, rfl⟩ : response' = response ∧ e₂ = e' := by simpa using heq
      obtain ⟨objectId, hreports⟩ := reports_commitNew hnew
      exact ⟨e₁, objectId, hleaves, hreports⟩
  | update found given prepared =>
    simp only [Write.commit, Option.some.injEq, Prod.mk.injEq, Except.ok.injEq] at hcommit
    exact ⟨e₁, _, hleaves, reports_commitChanges (Prod.ext hcommit.1 hcommit.2) hs⟩
  | delete found =>
    simp only [Write.commit, Option.some.injEq, Prod.mk.injEq, Except.ok.injEq] at hcommit
    exact ⟨e₁, _, hleaves, reports_commitRemoval (Prod.ext hcommit.1 hcommit.2) hs⟩

def logging : Engine where
  settings := { objectIdLength := 1 }
  contents :=
    ({} : Contents).insert "Item" "a" [("createdAt", .str "1970-01-01T00:00:00.000Z"),
    ("name", .str "pen"), ("objectId", .str "a"), ("updatedAt", .str "1970-01-01T00:00:00.000Z")]
  hooks :=
    [(("Item", .beforeSave), fun call =>
      .send (.create "Log" (.obj [("saved", .obj call.object)])) fun _ =>
    .answer (.replacement (KeyMap.insert call.object "logged" (.bool true))))]

def relating : Request :=
  .update "Item" "a"
    (.obj [("parts", .obj [("__op", .str "AddRelation"), ("objects", .arr [.str "cap"])])])

theorem success_reports_record_logging :
    ∃ response e', serveWith (serve 0) relating logging = some (.ok response, e') ∧
      relating.operation ≠ .read ∧
      response.isSuccess = true ∧ e'.contents.Hides "Item" "parts" ∧
      (e'.contents.fetch "Log" "1").isSome = true ∧
      ∃ e₁ objectId, HookLeaves (serve 0) relating logging e₁ ∧
        Reports relating e₁ e' objectId response :=
  ⟨_, _, rfl, by decide, rfl, by decide +kernel, rfl, success_reports_record rfl (by decide) rfl⟩

end Engine

end DocumentStore
