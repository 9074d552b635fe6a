import DocumentStore.Proofs.Commit
import DocumentStore.Proofs.Moment

/-!
Runs: what a client does with a new engine, and all that the hooks do in between. What one step does
to the contents is said once, and the invariants of runs follow from it.
-/

namespace DocumentStore

namespace Response

theorem isSuccess_ok (body : Value) : (ok body).isSuccess = true := rfl

theorem isSuccess_created (body : Value) : (created body).isSuccess = true := rfl

theorem isSuccess_notFound : notFound.isSuccess = false := rfl

end Response

namespace Moment

def Resumes (m : Moment) (write : Write) (record : Record) : Prop :=
  ∃ answer sender waiting, m.script = .answer answer ∧ m.waiting = (write, sender) :: waiting ∧
    (answer = .replacement record ∨ answer = .nothing ∧ record = write.call.object)

theorem Resumes.cases {m : Moment} {write : Write} {record : Record} (h : m.Resumes write record) :
    m.script = .answer (.replacement record) ∨ record = write.call.object ∧ ∃ sender,
      (write, sender) ∈ m.waiting := by
  obtain ⟨answer, sender, waiting, hscript, hwaiting, hanswer⟩ := h
  rcases hanswer with rfl | ⟨-, hrecord⟩
  · exact .inl hscript
  · refine .inr ⟨hrecord, sender, ?_⟩
    rw [hwaiting]
    exact List.mem_cons_self

/-- The step from this moment commits a write and answers it with success. -/
structure Commits (m : Moment) (write : Write) (record : Record) (response : Response) : Prop where
  resumes : m.Resumes write record
  commit : write.commit record m.engine = some (.ok response, m.step.engine)
  success : response.isSuccess = true

def Clears (m : Moment) : Prop := ∃ next, m.script = .clear next

theorem Clears.step_engine {m : Moment} (h : m.Clears) : m.step.engine = m.engine.clear := by
  obtain ⟨e, script, waiting⟩ := m
  obtain ⟨next, rfl⟩ : ∃ next, script = .clear next := h
  rfl

theorem commit_cases {write : Write} {record : Record} {e e' : Engine} {outcome : Outcome}
    (h : write.commit record e = some (outcome, e')) :
    e' = e ∨ ∃ response, outcome = .ok response ∧ response.isSuccess = true := by
  cases write with
  | create className fields =>
    simp only [Write.commit] at h
    split at h
    · simp only [Option.some.injEq, Prod.mk.injEq] at h
      exact .inl h.2.symm
    · simp only [Option.map_eq_some_iff, Prod.mk.injEq] at h
      obtain ⟨⟨response, e₁⟩, hc, rfl, rfl⟩ := h
      obtain ⟨id, ids, record', -, -, -, rfl⟩ := Engine.commitNew_eq_some hc
      exact .inr ⟨_, rfl, Response.isSuccess_created _⟩
  | update className objectId stored changes draft prepared =>
    simp only [Write.commit, Option.some.injEq, Prod.mk.injEq] at h
    obtain ⟨rfl, rfl⟩ := h
    cases hf : e.contents.fetch className objectId with
    | none => exact .inl (by rw [Engine.commitChanges_of_missing _ hf])
    | some current =>
      obtain ⟨record', -, hc⟩ := Engine.commitChanges_of_stored ⟨record, draft.relations⟩ hf
      exact .inr ⟨_, by rw [hc], Response.isSuccess_ok _⟩
  | delete className objectId stored =>
    simp only [Write.commit, Option.some.injEq, Prod.mk.injEq] at h
    obtain ⟨rfl, rfl⟩ := h
    cases hf : e.contents.fetch className objectId with
    | none => exact .inl (by rw [Engine.commitRemoval_of_missing hf])
    | some current =>
      exact .inr ⟨_, by rw [Engine.commitRemoval_of_stored hf], Response.isSuccess_ok _⟩

theorem finish_cases {e e' : Engine} {answer : HookAnswer} {write : Write}
    {sender : Outcome → Script} {waiting : List (Write × (Outcome → Script))} {outcome : Outcome}
    (h : write.finish answer e = some (outcome, e')) :
    e' = e ∨ ∃ record response,
      Commits ⟨e, .answer answer, (write, sender) :: waiting⟩ write record response := by
  have hs := step_of_next (next?_of_finish h sender waiting)
  have committed (record : Record) (hc : write.commit record e = some (outcome, e'))
      (ha : answer = .replacement record ∨ answer = .nothing ∧ record = write.call.object) :
      e' = e ∨ ∃ record response,
        Commits ⟨e, .answer answer, (write, sender) :: waiting⟩ write record response := by
    refine (commit_cases hc).imp_right ?_
    rintro ⟨response, rfl, hr⟩
    exact ⟨record, response, ⟨answer, sender, waiting, rfl, rfl, ha⟩, by rw [hs]; exact hc, hr⟩
  cases answer with
  | replacement record => exact committed record h (.inl rfl)
  | nothing => exact committed write.call.object h (.inr ⟨rfl, rfl⟩)
  | rejection value =>
    simp only [Write.finish, Option.some.injEq, Prod.mk.injEq] at h
    exact .inl h.2.symm

structure Quiet (e e' : Engine) : Prop where
  contents : e'.contents = e.contents
  clock : e'.clock = e.clock
  settings : e'.settings = e.settings

theorem Quiet.refl (e : Engine) : Quiet e e := ⟨rfl, rfl, rfl⟩

/-- What one step does to the contents: nothing, or it clears them, or it commits a write. -/
theorem step_effect (m : Moment) :
    Quiet m.engine m.step.engine ∨
    m.Clears ∧ m.step.engine = m.engine.clear ∨
    ∃ write record response, m.Commits write record response := by
  obtain ⟨e, script, waiting⟩ := m
  cases script with
  | answer answer =>
    cases waiting with
    | nil => exact .inl (.refl e)
    | cons frame waiting =>
      obtain ⟨write, sender⟩ := frame
      cases hf : write.finish answer e with
      | none =>
        rw [step, next?_of_finish_none hf sender waiting]
        exact .inl (.refl e)
      | some result =>
        obtain ⟨outcome, e'⟩ := result
        rcases finish_cases hf with rfl | ⟨record, response, hc⟩
        · rw [step_of_next (next?_of_finish hf sender waiting)]
          exact .inl (.refl e')
        · exact .inr (.inr ⟨write, record, response, hc⟩)
  | send request next =>
    cases hp : e.prepare request with
    | inl outcome =>
      rw [step_of_next (next?_of_outcome hp next waiting)]
      exact .inl (.refl e)
    | inr write =>
      rw [step_of_next (next?_of_write hp next waiting)]
      exact .inl (.refl e)
  | register className kind hook next => exact .inl ⟨rfl, rfl, rfl⟩
  | unregister className kind next => exact .inl ⟨rfl, rfl, rfl⟩
  | clear next => exact .inr (.inl ⟨⟨next, rfl⟩, rfl⟩)
  | note entry next => exact .inl ⟨rfl, rfl, rfl⟩

def fetch (m : Moment) (className objectId : String) : Option Record :=
  m.engine.contents.fetch className objectId

/-- What one step does to the record under an id of a class. -/
inductive Fate (m : Moment) (className objectId : String) : Prop where
  | kept (same : m.step.fetch className objectId = m.fetch className objectId)
  | gone (absent : m.step.fetch className objectId = none)
  | born (fields record draft stored : Record) (response : Response) (bits : Nat)
      (commits : m.Commits (.create className fields) record response)
      (status : response.status = 201) (absent : m.fetch className objectId = none)
      (after : m.step.fetch className objectId = some stored)
      (drawn : objectId = IdSupply.idOf m.engine.settings.objectIdLength bits)
      (shape : Stored draft objectId (some (.str m.engine.stamp.1)) m.engine.stamp.1 stored)
  | changed (current draft stored : Record)
      (before : m.fetch className objectId = some current)
      (after : m.step.fetch className objectId = some stored)
      (shape : Stored draft objectId (KeyMap.get? current "createdAt")
        (laterStamp (KeyMap.get? current "updatedAt") m.engine.stamp.1) stored)

theorem Commits.create {m : Moment} {className : String} {fields record : Record}
    {response : Response} (h : m.Commits (.create className fields) record response) :
    ∃ draft id ids stored, Draft.ofNew record = .ok draft ∧
      m.engine.ids.next? m.engine.settings.objectIdLength
        (m.engine.contents.collection className).ids = some (id, ids) ∧
      Stored draft.record id (some (.str m.engine.stamp.1)) m.engine.stamp.1 stored ∧
      m.step.engine = { m.engine with
        ids := ids
        clock := m.engine.clock.read.2
        contents :=
          (m.engine.contents.hide className draft.relations).insert className id stored } ∧
      response = .created (.obj (m.step.engine.contents.visible className stored)) := by
  have hc := h.commit
  simp only [Write.commit] at hc
  split at hc
  · cases hc
  · rename_i draft hd
    simp only [Option.map_eq_some_iff, Prod.mk.injEq, Except.ok.injEq] at hc
    obtain ⟨⟨_, _⟩, hn, rfl, he⟩ := hc
    obtain ⟨id, ids, stored, hid, hs, rfl, hr⟩ := Engine.commitNew_eq_some hn
    exact ⟨draft, id, ids, stored, hd, hid, hs, he.symm, by rw [hr, ← he]⟩

theorem Commits.update {m : Moment} {className objectId : String} {previous changes record : Record}
    {draft : Draft} {prepared : Draft.ofChanges previous changes = .ok draft} {response : Response}
    (h : m.Commits (.update className objectId previous changes draft prepared) record response) :
    ∃ current stored, m.fetch className objectId = some current ∧
      Stored record objectId (KeyMap.get? current "createdAt")
        (laterStamp (KeyMap.get? current "updatedAt") m.engine.stamp.1) stored ∧
      m.step.engine = { m.engine with
        clock := m.engine.clock.read.2
        contents :=
          (m.engine.contents.hide className draft.relations).insert className objectId stored } ∧
      response = .ok (.obj (m.step.engine.contents.visible className
        (KeyMap.without stored ["objectId", "createdAt"]))) := by
  have hc := h.commit
  simp only [Write.commit, Option.some.injEq, Prod.mk.injEq, Except.ok.injEq] at hc
  obtain ⟨hr, he⟩ := hc
  cases hf : m.engine.contents.fetch className objectId with
  | none =>
    rw [Engine.commitChanges_of_missing _ hf] at hr
    exact absurd h.success (by simp [← hr, Response.isSuccess_notFound])
  | some current =>
    obtain ⟨stored, hs, hc⟩ := Engine.commitChanges_of_stored ⟨record, draft.relations⟩ hf
    rw [hc] at hr he
    exact ⟨current, stored, hf, hs, he.symm, by rw [← hr, ← he]⟩

theorem Commits.delete {m : Moment} {className objectId : String} {previous record : Record}
    {response : Response} (h : m.Commits (.delete className objectId previous) record response) :
    ∃ current, m.fetch className objectId = some current ∧
      m.step.engine = { m.engine with contents := m.engine.contents.erase className objectId } ∧
      response = .ok (.obj []) := by
  have hc := h.commit
  simp only [Write.commit, Option.some.injEq, Prod.mk.injEq, Except.ok.injEq] at hc
  obtain ⟨hr, he⟩ := hc
  cases hf : m.engine.contents.fetch className objectId with
  | none =>
    rw [Engine.commitRemoval_of_missing hf] at hr
    exact absurd h.success (by simp [← hr, Response.isSuccess_notFound])
  | some current =>
    rw [Engine.commitRemoval_of_stored hf] at hr he
    exact ⟨current, hf, he.symm, hr.symm⟩

/-- How a record that is stored under an id of a class after a step has come there. -/
inductive Arrival (m : Moment) (className objectId : String) (made : Record) : Prop where
  | kept (same : m.fetch className objectId = some made)
  | created (fields record : Record) (response : Response) (draft : Draft) (bits : Nat)
      (commits : m.Commits (.create className fields) record response)
      (drafted : Draft.ofNew record = .ok draft) (absent : m.fetch className objectId = none)
      (drawn : objectId = IdSupply.idOf m.engine.settings.objectIdLength bits)
      (shape : Stored draft.record objectId (some (.str m.engine.stamp.1)) m.engine.stamp.1 made)
  | changed (previous changes record current : Record) (draft : Draft)
      (prepared : Draft.ofChanges previous changes = .ok draft) (response : Response)
      (commits :
        m.Commits (.update className objectId previous changes draft prepared) record response)
      (before : m.fetch className objectId = some current)
      (shape : Stored record objectId (KeyMap.get? current "createdAt")
        (laterStamp (KeyMap.get? current "updatedAt") m.engine.stamp.1) made)

theorem arrival {m : Moment} {className objectId : String} {made : Record}
    (h : m.step.fetch className objectId = some made) :
    m.Arrival className objectId made := by
  rcases m.step_effect with hq | ⟨-, hc⟩ | ⟨write, record, response, hw⟩
  · rw [fetch, hq.contents] at h
    exact .kept h
  · rw [fetch, hc] at h
    cases h
  · cases write with
    | create name fields =>
      obtain ⟨draft, id, ids, stored, hd, hid, hs, he, -⟩ := hw.create
      obtain ⟨hfresh, bits, hbits⟩ := IdSupply.next?_eq_some hid
      rw [fetch, he, Contents.fetch_insert, Contents.fetch_hide] at h
      by_cases hkey : className = name ∧ objectId = id
      · rw [if_pos hkey] at h
        obtain ⟨rfl, rfl⟩ := hkey
        obtain rfl := Option.some.inj h
        have habsent : m.fetch className objectId = none := by
          rw [Collection.mem_ids_iff] at hfresh
          exact Option.eq_none_iff_forall_ne_some.mpr fun found hf => hfresh ⟨found, hf⟩
        exact .created fields record response draft bits hw hd habsent hbits hs
      · rw [if_neg hkey] at h
        exact .kept h
    | update name id previous changes draft prepared =>
      obtain ⟨current, stored, hf, hs, he, -⟩ := hw.update
      rw [fetch, he, Contents.fetch_insert, Contents.fetch_hide] at h
      by_cases hkey : className = name ∧ objectId = id
      · rw [if_pos hkey] at h
        obtain ⟨rfl, rfl⟩ := hkey
        obtain rfl := Option.some.inj h
        exact .changed previous changes record current draft prepared response hw hf hs
      · rw [if_neg hkey] at h
        exact .kept h
    | delete name id previous =>
      obtain ⟨-, -, he, -⟩ := hw.delete
      rw [fetch, he, Contents.fetch_erase] at h
      split at h
      · cases h
      · exact .kept h

theorem fate (m : Moment) (className objectId : String) : m.Fate className objectId := by
  cases hf : m.step.fetch className objectId with
  | none => exact .gone hf
  | some made =>
    cases arrival hf with
    | kept same => exact .kept (hf.trans same.symm)
    | created fields record response draft bits commits drafted absent drawn shape =>
      obtain ⟨_, _, _, _, -, -, -, -, hr⟩ := commits.create
      exact .born fields record draft.record made response bits commits (by rw [hr]; rfl) absent
        hf drawn shape
    | changed previous changes record current draft prepared response commits before shape =>
      exact .changed current record made before hf shape

theorem mem_waiting_step {m : Moment} {frame : Write × (Outcome → Script)}
    (h : frame ∈ m.step.waiting) :
    frame ∈ m.waiting ∨ ∃ request next, m.script = .send request next ∧
      m.engine.prepare request = .inr frame.1 := by
  obtain ⟨e, script, waiting⟩ := m
  cases script with
  | answer answer =>
    cases waiting with
    | nil => exact .inl h
    | cons top waiting =>
      obtain ⟨write, sender⟩ := top
      cases hf : write.finish answer e with
      | none =>
        rw [step, next?_of_finish_none hf sender waiting] at h
        exact .inl h
      | some result =>
        obtain ⟨outcome, e'⟩ := result
        rw [step_of_next (next?_of_finish hf sender waiting)] at h
        exact .inl (List.mem_cons_of_mem _ h)
  | send request next =>
    cases hp : e.prepare request with
    | inl outcome =>
      rw [step_of_next (next?_of_outcome hp next waiting)] at h
      exact .inl h
    | inr write =>
      rw [step_of_next (next?_of_write hp next waiting)] at h
      rcases List.mem_cons.mp h with rfl | hmem
      · exact .inr ⟨request, next, rfl, hp⟩
      · exact .inl hmem
  | register | unregister | clear | note => exact .inl h

theorem settings_step (m : Moment) : m.step.engine.settings = m.engine.settings := by
  rcases m.step_effect with hq | ⟨-, hc⟩ | ⟨write, record, response, hw⟩
  · exact hq.settings
  · rw [hc]; rfl
  · cases write with
    | create className fields => obtain ⟨_, _, _, _, -, -, -, he, -⟩ := hw.create; rw [he]
    | update className objectId previous changes draft prepared =>
      obtain ⟨_, _, -, -, he, -⟩ := hw.update; rw [he]
    | delete className objectId previous => obtain ⟨_, -, he, -⟩ := hw.delete; rw [he]

end Moment

theorem Settings.valid_shortest : ({ objectIdLength := 1 } : Settings).Valid := rfl

/--
A run: usable settings, a clock, a source of ids, and what a client does, the hooks it registers
included. A hook that acts otherwise from call to call registers its next self before it goes on.
-/
structure Run where
  settings : Settings
  usable : settings.Valid
  clock : Clock
  ids : IdSupply
  client : Script

namespace Run

def start (r : Run) : Moment :=
  ⟨{ settings := r.settings, clock := r.clock, ids := r.ids }, r.client, []⟩

def moment (r : Run) (n : Nat) : Moment := r.start.after n

def fetch (r : Run) (n : Nat) (className objectId : String) : Option Record :=
  (r.moment n).fetch className objectId

theorem settings_moment (r : Run) (n : Nat) : (r.moment n).engine.settings = r.settings := by
  induction n with
  | zero => rfl
  | succ n ih => exact (r.moment n).settings_step.trans ih

end Run

end DocumentStore
