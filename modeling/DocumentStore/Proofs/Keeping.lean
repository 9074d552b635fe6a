import DocumentStore.Proofs.Run
import DocumentStore.Proofs.Updating

/-!
Predicates of records that a store keeps. Where a predicate survives what the engine makes of
records, and a client and its hooks hand over no other records, no other record is ever stored. A
store, an engine or a run of such records is a type of its own.
-/

namespace DocumentStore

variable {P : Record → Prop}

namespace Contents

def Every (c : Contents) (P : Record → Prop) : Prop :=
  ∀ className objectId record, c.fetch className objectId = some record → P record

variable {c : Contents}

theorem every_empty (P : Record → Prop) : ({} : Contents).Every P := nofun

theorem Every.insert (h : c.Every P) (className objectId : String) {record : Record}
    (hr : P record) :
    (c.insert className objectId record).Every P := by
  intro className' objectId' record' hf
  rw [fetch_insert] at hf
  split at hf
  · exact Option.some.inj hf ▸ hr
  · exact h className' objectId' record' hf

theorem Every.erase (h : c.Every P) (className objectId : String) :
    (c.erase className objectId).Every P := by
  intro className' objectId' record' hf
  rw [fetch_erase] at hf
  split at hf
  · cases hf
  · exact h className' objectId' record' hf

theorem Every.hide (h : c.Every P) (className : String) (fields : List String) :
    (c.hide className fields).Every P := by
  intro className' objectId' record' hf
  rw [fetch_hide] at hf
  exact h className' objectId' record' hf

structure Holding (P : Record → Prop) extends Contents where
  every : toContents.Every P

namespace Holding

instance : CoeOut (Holding P) Contents := ⟨toContents⟩

def empty (P : Record → Prop) : Holding P := ⟨{}, every_empty P⟩

def insert (c : Holding P) (className objectId : String) (record : {record : Record // P record}) :
    Holding P :=
  ⟨c.toContents.insert className objectId record, c.every.insert className objectId record.2⟩

def hide (c : Holding P) (className : String) (fields : List String) : Holding P :=
  ⟨c.toContents.hide className fields, c.every.hide className fields⟩

@[simp]
theorem toContents_empty (P : Record → Prop) : (empty P).toContents = {} := rfl

@[simp]
theorem toContents_insert (c : Holding P) (className objectId : String)
    (record : {record : Record // P record}) :
    (c.insert className objectId record).toContents =
      c.toContents.insert className objectId record := rfl

@[simp]
theorem toContents_hide (c : Holding P) (className : String) (fields : List String) :
    (c.hide className fields).toContents = c.toContents.hide className fields := rfl

end Holding

end Contents

structure Engine.Holding (P : Record → Prop) extends Engine where
  every : contents.Every P

namespace Engine.Holding

instance : CoeOut (Engine.Holding P) Engine := ⟨toEngine⟩

def store (e : Engine.Holding P) : Contents.Holding P := ⟨e.contents, e.every⟩

end Engine.Holding

def Request.Gives (request : Request) (P : Record → Prop) : Prop :=
  ∀ fields, request.payload = .obj fields → P fields

structure Request.Giving (P : Record → Prop) extends Request where
  gives : toRequest.Gives P

instance : CoeOut (Request.Giving P) Request := ⟨Request.Giving.toRequest⟩

/-- What a script hands to the engine next satisfies the predicate: a payload, or what a hook
answers. -/
def Script.Gives (script : Script) (P : Record → Prop) : Prop :=
  match script with
  | .send request _ => request.Gives P
  | .answer (.replacement record) => P record
  | _ => True

structure Run.Giving (P : Record → Prop) extends Run where
  gives : ∀ n, (toRun.moment n).script.Gives P

/-- The predicate survives all that the engine makes of records: drafts, and its own three
fields. -/
structure Record.Kept (P : Record → Prop) : Prop where
  nil : P []
  ofNew {fields : Record} {draft : Draft} :
    P fields → Draft.ofNew fields = .ok draft → P draft.record
  ofChanges {stored changes : Record} {draft : Draft} :
    P stored → P changes → Draft.ofChanges stored changes = .ok draft → P draft.record
  stamped {record : Record} (field text : String) :
    P record → P (KeyMap.insert record field (.str text))
  carried {record current : Record} {field : String} {value : Value} :
    P record → P current → KeyMap.get? current field = some value →
      P (KeyMap.insert record field value)
  erased {record : Record} (field : String) : P record → P (KeyMap.erase record field)

section Commits

variable {e e' : Engine} {className objectId : String} {response : Response} {record : Record}
  {outcome : Outcome}

theorem Engine.every_commitNew (hP : Record.Kept P) {draft : Draft} (ho : e.contents.Every P)
    (hd : P draft.record) (h : e.commitNew className draft = some (response, e')) :
    e'.contents.Every P := by
  unfold commitNew at h
  split at h
  · cases h
  · simp only [Option.some.injEq, Prod.mk.injEq] at h
    obtain ⟨-, rfl⟩ := h
    refine (ho.hide className draft.relations).insert className _ ?_
    exact hP.stamped "updatedAt" _ (hP.stamped "createdAt" _ (hP.stamped "objectId" _ hd))

theorem Engine.every_commitChanges (hP : Record.Kept P) {draft : Draft} (ho : e.contents.Every P)
    (hd : P draft.record) (h : e.commitChanges className objectId draft = (response, e')) :
    e'.contents.Every P := by
  unfold commitChanges at h
  split at h
  · obtain ⟨-, rfl⟩ := Prod.mk.inj h
    exact ho
  · rename_i current hf
    obtain ⟨-, rfl⟩ := Prod.mk.inj h
    have hnamed := hP.stamped "objectId" objectId hd
    refine (ho.hide className draft.relations).insert className objectId
      (hP.stamped "updatedAt" _ ?_)
    split
    · rename_i hcreated
      exact hP.carried hnamed (ho className objectId current hf) hcreated
    · exact hP.erased "createdAt" hnamed

theorem Engine.every_commitRemoval (ho : e.contents.Every P)
    (h : e.commitRemoval className objectId = (response, e')) : e'.contents.Every P := by
  unfold commitRemoval at h
  split at h
  · obtain ⟨-, rfl⟩ := Prod.mk.inj h
    exact ho
  · obtain ⟨-, rfl⟩ := Prod.mk.inj h
    exact ho.erase className objectId

theorem Write.every_commit (hP : Record.Kept P) {write : Write} (ho : e.contents.Every P)
    (hr : P record) (h : write.commit record e = some (outcome, e')) : e'.contents.Every P := by
  cases write with
  | create className fields =>
    simp only [commit] at h
    split at h
    · obtain ⟨-, rfl⟩ := Prod.mk.inj (Option.some.inj h)
      exact ho
    · rename_i draft hd
      simp only [Option.map_eq_some_iff, Prod.mk.injEq] at h
      obtain ⟨⟨response, e₁⟩, hc, -, rfl⟩ := h
      exact Engine.every_commitNew hP ho (hP.ofNew hr hd) hc
  | update className objectId stored changes draft prepared =>
    obtain ⟨-, rfl⟩ := Prod.mk.inj (Option.some.inj h)
    exact Engine.every_commitChanges hP ho hr rfl
  | delete className objectId stored =>
    obtain ⟨-, rfl⟩ := Prod.mk.inj (Option.some.inj h)
    exact Engine.every_commitRemoval ho rfl

theorem Request.Gives.ofPayload {request : Request} (hnil : P []) (h : request.Gives P)
    {fields : Record} (hp : Record.ofPayload request.payload = .ok fields) : P fields := by
  cases hv : request.payload with
  | obj given =>
    rw [hv] at hp
    exact Except.ok.inj hp ▸ h given hv
  | null =>
    rw [hv] at hp
    exact Except.ok.inj hp ▸ hnil
  | _ =>
    rw [hv] at hp
    cases hp

theorem Engine.gives_call (hP : Record.Kept P) {request : Request} {write : Write}
    (ho : e.contents.Every P) (hs : request.Gives P) (h : e.prepare request = .inr write) :
    P write.call.object := by
  obtain ⟨operation, className, objectId, payload⟩ := request
  cases operation with
  | create =>
    simp only [prepare] at h
    split at h
    · cases h
    · rename_i fields hp
      obtain rfl := Sum.inr.inj h
      exact hs.ofPayload hP.nil hp
  | read => cases objectId <;> cases h
  | update =>
    cases objectId with
    | none => cases h
    | some id =>
      obtain ⟨stored, changes, draft, prepared, hf, hp, rfl⟩ := prepare_update_eq_inr h
      have hgives : (Request.update className id payload).Gives P := hs
      exact hP.ofChanges (ho className id stored hf) (hgives.ofPayload hP.nil hp) prepared
  | delete =>
    cases objectId with
    | none => cases h
    | some id =>
      simp only [prepare] at h
      split at h
      · cases h
      · rename_i stored hf
        obtain rfl := Sum.inr.inj h
        exact ho className id stored hf

end Commits

namespace Moment

structure Every (m : Moment) (P : Record → Prop) : Prop where
  contents : m.engine.contents.Every P
  waiting : ∀ frame ∈ m.waiting, P frame.1.call.object

variable {m : Moment}

theorem Every.of_resumes (h : m.Every P) (hs : m.script.Gives P) {write : Write} {record : Record}
    (hr : m.Resumes write record) : P record := by
  rcases hr.cases with hscript | ⟨rfl, sender, hwaits⟩
  · rw [hscript] at hs
    exact hs
  · exact h.waiting _ hwaits

theorem Every.step (hP : Record.Kept P) (h : m.Every P) (hs : m.script.Gives P) :
    m.step.Every P := by
  refine ⟨?_, fun frame hframe => ?_⟩
  · rcases m.step_effect with hq | ⟨-, hc⟩ | ⟨write, record, response, hw⟩
    · rw [hq.contents]
      exact h.contents
    · rw [hc]
      exact Contents.every_empty P
    · exact Write.every_commit hP h.contents (h.of_resumes hs hw.resumes) hw.commit
  · rcases mem_waiting_step hframe with hbefore | ⟨request, next, hscript, hp⟩
    · exact h.waiting frame hbefore
    · rw [hscript] at hs
      exact Engine.gives_call hP h.contents hs hp

end Moment

/-- A store keeps what its client and its hooks have kept in all that they have handed over. -/
theorem Run.every (r : Run) (hP : Record.Kept P) (n : Nat)
    (h : ∀ k < n, (r.moment k).script.Gives P) :
    (r.moment n).Every P := by
  induction n with
  | zero => exact ⟨Contents.every_empty P, nofun⟩
  | succ n ih =>
    exact (ih fun k hk => h k (Nat.lt_succ_of_lt hk)).step hP (h n (Nat.lt_succ_self n))

def Run.Giving.engine (r : Run.Giving P) (hP : Record.Kept P) (n : Nat) : Engine.Holding P :=
  ⟨(r.moment n).engine, (r.every hP n fun k _ => r.gives k).contents⟩

end DocumentStore
