import DocumentStore.Proofs.Commit
import DocumentStore.Proofs.Moment
import DocumentStore.Proofs.Operators

/-!
Updates: what one that succeeds has read, called and committed. Between its reading and its commit
its hook may send any requests, and the commit does not look at what they have stored.
-/

namespace DocumentStore

namespace Engine

variable {nested : Serve} {e e₁ e' : Engine} {className objectId : String} {payload : Value}
  {response : Response}

theorem prepare_update_eq_inl
    (h : e.prepare (.update className objectId payload) = .inl (.ok response)) :
    response = .notFound := by
  simp only [Request.update, prepare] at h
  cases hf : e.contents.fetch className objectId with
  | none =>
    rw [hf] at h
    exact (Except.ok.inj (Sum.inl.inj h)).symm
  | some stored =>
    cases hp : Record.ofPayload payload with
    | error fault => simp [hf, hp] at h
    | ok changes =>
      cases hw : Write.ofChanges className objectId stored changes with
      | error fault => simp [hf, hp, hw] at h
      | ok write => simp [hf, hp, hw] at h

theorem prepare_update_eq_inr {write : Write}
    (h : e.prepare (.update className objectId payload) = .inr write) :
    ∃ stored changes draft prepared, e.contents.fetch className objectId = some stored ∧
      Record.ofPayload payload = .ok changes ∧
      write = .update className objectId stored changes draft prepared := by
  simp only [Request.update, prepare] at h
  cases hf : e.contents.fetch className objectId with
  | none => simp [hf] at h
  | some stored =>
    cases hp : Record.ofPayload payload with
    | error fault => simp [hf, hp] at h
    | ok changes =>
      cases hd : Draft.ofChanges stored changes with
      | error fault => simp [hf, hp, Write.ofChanges_of_error hd] at h
      | ok draft =>
        simp only [hf, hp, Write.ofChanges_of_ok hd] at h
        exact ⟨stored, changes, draft, hd, rfl, rfl, (Sum.inr.inj h).symm⟩

theorem commitChanges_eq_ok {draft : Draft}
    (h : e₁.commitChanges className objectId draft = (response, e')) (hs : response.status = 200) :
    ∃ current record, e₁.contents.fetch className objectId = some current ∧
      Stored draft.record objectId (KeyMap.get? current "createdAt")
        (laterStamp (KeyMap.get? current "updatedAt") e₁.stamp.1) record ∧
      e'.contents.fetch className objectId = some record := by
  cases hf : e₁.contents.fetch className objectId with
  | none =>
    rw [commitChanges_of_missing draft hf] at h
    rw [← (Prod.mk.inj h).1] at hs
    cases hs
  | some current =>
    obtain ⟨record, hstored, hc⟩ := commitChanges_of_stored draft hf
    rw [hc] at h
    refine ⟨current, record, rfl, hstored, ?_⟩
    rw [← (Prod.mk.inj h).2]
    exact (Contents.fetch_insert ..).trans (if_pos ⟨rfl, rfl⟩)

theorem exists_of_update_eq_ok
    (h : serveWith nested (.update className objectId payload) e = some (.ok response, e'))
    (hs : response.status = 200) :
    ∃ stored changes draft answer e₁ record current after,
      e.contents.fetch className objectId = some stored ∧ Record.ofPayload payload = .ok changes ∧
      Draft.ofChanges stored changes = .ok draft ∧
      (e.hookScript ⟨className, .beforeSave, draft.record, some stored⟩).run nested e =
        some (answer, e₁) ∧
      (answer = .replacement record ∨ answer = .nothing ∧ record = draft.record) ∧
      e₁.contents.fetch className objectId = some current ∧
      Stored record objectId (KeyMap.get? current "createdAt")
        (laterStamp (KeyMap.get? current "updatedAt") e₁.stamp.1) after ∧
      e'.contents.fetch className objectId = some after := by
  obtain hp | ⟨write, answer, e₁, record, hp, hr, hanswer, hcommit⟩ := serveWith_eq_ok h
  · rw [prepare_update_eq_inl hp] at hs
    cases hs
  · obtain ⟨stored, changes, draft, prepared, hf, hpayload, rfl⟩ := prepare_update_eq_inr hp
    simp only [Write.commit, Option.some.injEq, Prod.mk.injEq, Except.ok.injEq] at hcommit
    obtain ⟨current, after, hcurrent, hstored, hafter⟩ :=
      commitChanges_eq_ok (Prod.ext hcommit.1 hcommit.2) hs
    exact ⟨stored, changes, draft, answer, e₁, record, current, after, hf, hpayload, prepared, hr,
      hanswer, hcurrent, hstored, hafter⟩

/--
After an update that succeeds and whose hook, if there is one, answers nothing, each field that the
payload does not name and the engine does not own has the value it had when the update came in. So
it has the value it had just before the commit where the requests of the hook have not changed it,
and only there.
-/
theorem update_keeps_unnamed
    (h : serveWith nested (.update className objectId payload) e = some (.ok response, e'))
    (hs : response.status = 200) :
    ∃ stored changes draft answer e₁ current after,
      e.contents.fetch className objectId = some stored ∧ Record.ofPayload payload = .ok changes ∧
      Draft.ofChanges stored changes = .ok draft ∧
      (e.hookScript ⟨className, .beforeSave, draft.record, some stored⟩).run nested e =
        some (answer, e₁) ∧
      e₁.contents.fetch className objectId = some current ∧
      e'.contents.fetch className objectId = some after ∧
      (answer = .nothing → ∀ field, field ∉ KeyMap.keys changes → field ∉ identityFields →
        KeyMap.get? after field = KeyMap.get? stored field ∧
        (KeyMap.get? after field = KeyMap.get? current field ↔
          KeyMap.get? current field = KeyMap.get? stored field)) := by
  obtain ⟨stored, changes, draft, answer, e₁, record, current, after, hf, hp, hd, hr, hanswer,
    hcurrent, hstored, hafter⟩ :=
    exists_of_update_eq_ok h hs
  refine ⟨stored, changes, draft, answer, e₁, current, after, hf, hp, hd, hr, hcurrent, hafter, ?_⟩
  intro hnothing field hnamed hidentity
  obtain rfl : record = draft.record := by
    rcases hanswer with ha | ⟨-, ha⟩
    · cases ha.symm.trans hnothing
    · exact ha
  have hkept : KeyMap.get? after field = KeyMap.get? stored field := by
    rw [hstored.others field hidentity, Draft.get?_ofChanges hd hnamed]
  refine ⟨hkept, ?_⟩
  rw [hkept]
  exact eq_comm

/-- The hook of a class takes itself away and then changes another field of the record under
change. -/
def meddling : Engine where
  settings := { objectIdLength := 1 }
  contents := ({} : Contents).insert "Item" "1" [("a", .bool false), ("b", .bool false),
    ("createdAt", .str "1970-01-01T00:00:00.000Z"), ("objectId", .str "1"),
    ("updatedAt", .str "1970-01-01T00:00:00.000Z")]
  hooks := [(("Item", .beforeSave), fun _ => .unregister "Item" .beforeSave
    (.send (.update "Item" "1" (.obj [("b", .bool true)])) fun _ => .answer .nothing))]

def overwriting : Request := .update "Item" "1" (.obj [("a", .bool true)])

theorem update_keeps_unnamed_meddling :
    ∃ response e', serveWith (serve 0) overwriting meddling = some (.ok response, e') ∧
      response.status = 200 ∧
      ∃ stored changes draft answer e₁ current after,
        meddling.contents.fetch "Item" "1" = some stored ∧
        Record.ofPayload (.obj [("a", .bool true)]) = .ok changes ∧
        Draft.ofChanges stored changes = .ok draft ∧
        (meddling.hookScript ⟨"Item", .beforeSave, draft.record, some stored⟩).run
          (serve 0) meddling = some (answer, e₁) ∧
        e₁.contents.fetch "Item" "1" = some current ∧ e'.contents.fetch "Item" "1" = some after ∧
        (answer = .nothing → ∀ field, field ∉ KeyMap.keys changes → field ∉ identityFields →
          KeyMap.get? after field = KeyMap.get? stored field ∧
          (KeyMap.get? after field = KeyMap.get? current field ↔
            KeyMap.get? current field = KeyMap.get? stored field)) :=
  ⟨_, _, rfl, rfl, update_keeps_unnamed rfl rfl⟩

/-- What the hook stores is lost: the payload of the update that called it does not name the
field. -/
theorem meddling_loses_change :
    ∃ stored draft response e' e₁ current after, meddling.contents.fetch "Item" "1" = some stored ∧
      Draft.ofChanges stored [("a", .bool true)] = .ok ⟨draft, []⟩ ∧
      serveWith (serve 0) overwriting meddling = some (.ok response, e') ∧ response.status = 200 ∧
      (meddling.hookScript ⟨"Item", .beforeSave, draft, some stored⟩).run (serve 0) meddling =
        some (.nothing, e₁) ∧
      e₁.contents.fetch "Item" "1" = some current ∧ e'.contents.fetch "Item" "1" = some after ∧
      KeyMap.get? current "b" = some (.bool true) ∧ KeyMap.get? after "b" = some (.bool false) :=
  ⟨_, _, _, _, _, _, _, rfl, rfl, rfl, rfl, rfl, rfl, rfl, rfl, rfl⟩

end Engine

end DocumentStore
