import DocumentStore.Engine.Serving

/-!
An engine at work, moment by moment. A write waits while its hook runs, and the requests of that
hook wait in turn; at each moment one script goes on by one step. The moments end where `Script.run`
ends, and they pass through all that happens on the way.
-/

namespace DocumentStore

/-- A write that its request has prepared and that waits for its hook. -/
inductive Write where
  | create (className : String) (fields : Record)
  | update (className objectId : String) (stored changes : Record) (draft : Draft)
      (prepared : Draft.ofChanges stored changes = .ok draft)
  | delete (className objectId : String) (stored : Record)

namespace Write

def ofChanges (className objectId : String) (stored changes : Record) : Except Fault Write :=
  match h : Draft.ofChanges stored changes with
  | .error fault => .error fault
  | .ok draft => .ok (.update className objectId stored changes draft h)

theorem ofChanges_of_error {className objectId : String} {stored changes : Record} {fault : Fault}
    (h : Draft.ofChanges stored changes = .error fault) :
    ofChanges className objectId stored changes = .error fault := by
  unfold ofChanges
  split <;> simp_all

theorem ofChanges_of_ok {className objectId : String} {stored changes : Record} {draft : Draft}
    (h : Draft.ofChanges stored changes = .ok draft) :
    ofChanges className objectId stored changes =
      .ok (.update className objectId stored changes draft h) := by
  unfold ofChanges
  split
  · simp_all
  · rename_i other ho
    obtain rfl : other = draft := by rw [h] at ho; exact (Except.ok.inj ho).symm
    rfl

def call : Write → HookRequest
  | .create className fields => ⟨className, .beforeSave, fields, none⟩
  | .update className _ stored _ draft _ => ⟨className, .beforeSave, draft.record, some stored⟩
  | .delete className _ stored => ⟨className, .beforeDelete, stored, none⟩

def commit (write : Write) (record : Record) (e : Engine) : Option (Outcome × Engine) :=
  match write with
  | .create className _ =>
    match Draft.ofNew record with
    | .error fault => some (.error fault, e)
    | .ok draft => (e.commitNew className draft).map fun (response, e) => (.ok response, e)
  | .update className objectId _ _ draft _ =>
    let (response, e) := e.commitChanges className objectId ⟨record, draft.relations⟩
    some (.ok response, e)
  | .delete className objectId _ =>
    let (response, e) := e.commitRemoval className objectId
    some (.ok response, e)

def finish (write : Write) (answer : HookAnswer) (e : Engine) : Option (Outcome × Engine) :=
  match answer with
  | .replacement record => write.commit record e
  | .nothing => write.commit write.call.object e
  | .rejection value => some (.error (.rejected value), e)

theorem finish_eq_ok {write : Write} {answer : HookAnswer} {e e' : Engine} {response : Response}
    (h : write.finish answer e = some (.ok response, e')) :
    ∃ record, (answer = .replacement record ∨ answer = .nothing ∧ record = write.call.object) ∧
      write.commit record e = some (.ok response, e') := by
  cases answer with
  | replacement record => exact ⟨record, .inl rfl, h⟩
  | nothing => exact ⟨write.call.object, .inr ⟨rfl, rfl⟩, h⟩
  | rejection value => simp [finish] at h

end Write

namespace Engine

/-- What a request comes to before any hook runs: an outcome, or a write that waits. -/
def prepare (e : Engine) (request : Request) : Outcome ⊕ Write :=
  match request.operation, request.objectId with
  | .create, _ =>
    match Record.ofPayload request.payload with
    | .error fault => .inl (.error fault)
    | .ok fields => .inr (.create request.className fields)
  | .read, some id => .inl (e.contents.readOne request.className id request.payload)
  | .read, none => .inl (e.contents.query e.settings request.className request.payload)
  | .update, some id =>
    match e.contents.fetch request.className id with
    | none => .inl (.ok .notFound)
    | some stored =>
      match Record.ofPayload request.payload with
      | .error fault => .inl (.error fault)
      | .ok changes =>
        match Write.ofChanges request.className id stored changes with
        | .error fault => .inl (.error fault)
        | .ok write => .inr write
  | .delete, some id =>
    match e.contents.fetch request.className id with
    | none => .inl (.ok .notFound)
    | some stored => .inr (.delete request.className id stored)
  | operation, none => .inl (.error (.document (.needsObjectId operation request.className)))

def hookScript (e : Engine) (call : HookRequest) : Script :=
  match e.hooks.get? call.className call.kind with
  | none => .answer .nothing
  | some hook => hook call

def carryOut (serve : Serve) (e : Engine) (write : Write) : Option (Outcome × Engine) :=
  match (e.hookScript write.call).run serve e with
  | none => none
  | some (answer, e) => write.finish answer e

theorem callHook_eq (serve : Serve) (e : Engine) (call : HookRequest) :
    e.callHook serve call = ((e.hookScript call).run serve e).map fun (answer, e) =>
      match answer with
      | .replacement record => (.ok record, e)
      | .nothing => (.ok call.object, e)
      | .rejection value => (.error (.rejected value), e) := by
  unfold callHook hookScript
  cases e.hooks.get? call.className call.kind with
  | none => rfl
  | some hook =>
    cases hr : (hook call).run serve e with
    | none => simp only [hr, Option.map_none]
    | some result =>
      obtain ⟨answer, e₁⟩ := result
      cases answer <;> simp only [hr, Option.map_some]

theorem serveWith_eq (serve : Serve) (request : Request) (e : Engine) :
    serveWith serve request e =
      match e.prepare request with
      | .inl outcome => some (outcome, e)
      | .inr write => e.carryOut serve write := by
  obtain ⟨operation, className, objectId, payload⟩ := request
  cases operation with
  | create =>
    simp only [serveWith, create, prepare, callHook_eq]
    cases Record.ofPayload payload with
    | error fault => rfl
    | ok fields =>
      simp only [carryOut, Write.call]
      cases (e.hookScript ⟨className, .beforeSave, fields, none⟩).run serve e with
      | none => rfl
      | some result => obtain ⟨answer, e₁⟩ := result; cases answer <;> rfl
  | read => cases objectId <;> rfl
  | update =>
    cases objectId with
    | none => rfl
    | some id =>
      simp only [serveWith, update, prepare, callHook_eq]
      cases e.contents.fetch className id with
      | none => rfl
      | some stored =>
        cases Record.ofPayload payload with
        | error fault => rfl
        | ok changes =>
          simp only [Except.bind]
          cases hd : Draft.ofChanges stored changes with
          | error fault => simp only [Write.ofChanges_of_error hd]
          | ok draft =>
            simp only [Write.ofChanges_of_ok hd, carryOut, Write.call]
            cases (e.hookScript ⟨className, .beforeSave, draft.record, some stored⟩).run
              serve e with
            | none => rfl
            | some result => obtain ⟨answer, e₁⟩ := result; cases answer <;> rfl
  | delete =>
    cases objectId with
    | none => rfl
    | some id =>
      simp only [serveWith, delete, prepare, callHook_eq]
      cases e.contents.fetch className id with
      | none => rfl
      | some stored =>
        simp only [carryOut, Write.call]
        cases (e.hookScript ⟨className, .beforeDelete, stored, none⟩).run serve e with
        | none => rfl
        | some result => obtain ⟨answer, e₁⟩ := result; cases answer <;> rfl

theorem serveWith_eq_ok {serve : Serve} {request : Request} {e e' : Engine} {response : Response}
    (h : serveWith serve request e = some (.ok response, e')) :
    e.prepare request = .inl (.ok response) ∨
      ∃ write answer e₁ record, e.prepare request = .inr write ∧
        (e.hookScript write.call).run serve e = some (answer, e₁) ∧
        (answer = .replacement record ∨ answer = .nothing ∧ record = write.call.object) ∧
        write.commit record e₁ = some (.ok response, e') := by
  rw [serveWith_eq] at h
  cases hp : e.prepare request with
  | inl outcome =>
    simp only [hp, Option.some.injEq, Prod.mk.injEq] at h
    exact .inl (congrArg Sum.inl h.1)
  | inr write =>
    simp only [hp, carryOut] at h
    cases hr : (e.hookScript write.call).run serve e with
    | none => simp [hr] at h
    | some result =>
      obtain ⟨answer, e₁⟩ := result
      simp only [hr] at h
      obtain ⟨record, hanswer, hcommit⟩ := Write.finish_eq_ok h
      exact .inr ⟨write, answer, e₁, record, rfl, hr, hanswer, hcommit⟩

end Engine

/-- The engine, the script that goes on, and the writes that wait, innermost first, each with how
its sender goes on. -/
structure Moment where
  engine : Engine
  script : Script
  waiting : List (Write × (Outcome → Script))

namespace Moment

/-- The next moment. There is none after the last answer, nor where a class has used up its ids. -/
def next? : Moment → Option Moment
  | ⟨_, .answer _, []⟩ => none
  | ⟨e, .answer answer, (write, sender) :: waiting⟩ =>
    (write.finish answer e).map fun (outcome, e) => ⟨e, sender outcome, waiting⟩
  | ⟨e, .send request next, waiting⟩ =>
    match e.prepare request with
    | .inl outcome => some ⟨e, next outcome, waiting⟩
    | .inr write => some ⟨e, e.hookScript write.call, (write, next) :: waiting⟩
  | ⟨e, .register className kind hook next, waiting⟩ =>
    some ⟨e.register className kind hook, next, waiting⟩
  | ⟨e, .unregister className kind next, waiting⟩ =>
    some ⟨e.unregister className kind, next, waiting⟩
  | ⟨e, .clear next, waiting⟩ => some ⟨e.clear, next, waiting⟩
  | ⟨e, .note entry next, waiting⟩ => some ⟨e.note entry, next, waiting⟩

def step (m : Moment) : Moment := m.next?.getD m

def after (m : Moment) : Nat → Moment
  | 0 => m
  | n + 1 => (m.after n).step

theorem step_of_next {m m' : Moment} (h : m.next? = some m') : m.step = m' := by
  rw [step, h, Option.getD_some]

theorem next?_of_outcome {e : Engine} {request : Request} {outcome : Outcome}
    (h : e.prepare request = .inl outcome) (next : Outcome → Script)
    (waiting : List (Write × (Outcome → Script))) :
    next? ⟨e, .send request next, waiting⟩ = some ⟨e, next outcome, waiting⟩ := by
  simp only [next?, h]

theorem next?_of_write {e : Engine} {request : Request} {write : Write}
    (h : e.prepare request = .inr write) (next : Outcome → Script)
    (waiting : List (Write × (Outcome → Script))) :
    next? ⟨e, .send request next, waiting⟩ =
      some ⟨e, e.hookScript write.call, (write, next) :: waiting⟩ := by
  simp only [next?, h]

theorem next?_of_finish {e e' : Engine} {answer : HookAnswer} {write : Write} {outcome : Outcome}
    (h : write.finish answer e = some (outcome, e')) (sender : Outcome → Script)
    (waiting : List (Write × (Outcome → Script))) :
    next? ⟨e, .answer answer, (write, sender) :: waiting⟩ = some ⟨e', sender outcome, waiting⟩ := by
  simp only [next?, h, Option.map_some]

theorem next?_of_finish_none {e : Engine} {answer : HookAnswer} {write : Write}
    (h : write.finish answer e = none) (sender : Outcome → Script)
    (waiting : List (Write × (Outcome → Script))) :
    next? ⟨e, .answer answer, (write, sender) :: waiting⟩ = none := by
  simp only [next?, h, Option.map_none]

theorem after_add (m : Moment) (k n : Nat) : m.after (k + n) = (m.after k).after n := by
  induction n with
  | zero => rfl
  | succ n ih => rw [← Nat.add_assoc, after, ih, after]

theorem after_succ (m : Moment) (n : Nat) : m.after (n + 1) = m.step.after n := by
  rw [Nat.add_comm, after_add, after, after]

theorem after_of_next_none {m : Moment} (h : m.next? = none) (n : Nat) : m.after n = m := by
  induction n with
  | zero => rfl
  | succ n ih => rw [after, ih, step, h, Option.getD_none]

def Reaches (m m' : Moment) : Prop := ∃ n, m.after n = m'

theorem Reaches.refl (m : Moment) : Reaches m m := ⟨0, rfl⟩

theorem Reaches.head {m m₁ m' : Moment} (h : m.next? = some m₁) (hr : Reaches m₁ m') :
    Reaches m m' := by
  obtain ⟨n, hn⟩ := hr
  exact ⟨n + 1, by rw [after_succ, step_of_next h, hn]⟩

theorem Reaches.trans {m m₁ m' : Moment} (h : Reaches m m₁) (h' : Reaches m₁ m') :
    Reaches m m' := by
  obtain ⟨k, hk⟩ := h
  obtain ⟨n, hn⟩ := h'
  exact ⟨k + n, by rw [after_add, hk, hn]⟩

/-- Where a request is answered, its moments come to that answer, whoever sent it. -/
def Followed (serve : Serve) : Prop :=
  ∀ request e outcome e' next waiting, serve request e = some (outcome, e') →
    Reaches ⟨e, .send request next, waiting⟩ ⟨e', next outcome, waiting⟩

theorem reaches_of_run {serve : Serve} (hs : Followed serve) {script : Script} {e e' : Engine}
    {answer : HookAnswer} (h : script.run serve e = some (answer, e'))
    (waiting : List (Write × (Outcome → Script))) :
    Reaches ⟨e, script, waiting⟩ ⟨e', .answer answer, waiting⟩ := by
  induction script generalizing e with
  | answer a =>
    simp only [Script.run, Option.some.injEq, Prod.mk.injEq] at h
    obtain ⟨rfl, rfl⟩ := h
    exact .refl _
  | send request next ih =>
    simp only [Script.run] at h
    cases hr : serve request e with
    | none => simp [hr] at h
    | some result =>
      obtain ⟨outcome, e₁⟩ := result
      rw [hr] at h
      exact (hs request e outcome e₁ next waiting hr).trans (ih outcome h)
  | register className kind hook next _ ih => exact .head rfl (ih h)
  | unregister className kind next ih => exact .head rfl (ih h)
  | clear next ih => exact .head rfl (ih h)
  | note entry next ih => exact .head rfl (ih h)

theorem followed_serveWith {serve : Serve} (hs : Followed serve) :
    Followed (Engine.serveWith serve) := by
  intro request e outcome e' next waiting h
  rw [Engine.serveWith_eq] at h
  cases ha : e.prepare request with
  | inl result =>
    simp only [ha, Option.some.injEq, Prod.mk.injEq] at h
    obtain ⟨rfl, rfl⟩ := h
    exact .head (next?_of_outcome ha next waiting) (.refl _)
  | inr write =>
    simp only [ha, Engine.carryOut] at h
    cases hr : (e.hookScript write.call).run serve e with
    | none => simp [hr] at h
    | some result =>
      obtain ⟨answer, e₁⟩ := result
      simp only [hr] at h
      refine .head (next?_of_write ha next waiting)
        ((reaches_of_run hs hr ((write, next) :: waiting)).trans ?_)
      exact .head (next?_of_finish h next waiting) (.refl _)

theorem followed_serve (depth : Nat) : Followed (Engine.serve depth) := by
  induction depth with
  | zero => exact followed_serveWith fun _ _ _ _ _ _ h => by cases h
  | succ depth ih => exact followed_serveWith ih

def Extends (serve serve' : Serve) : Prop :=
  ∀ request e result, serve request e = some result → serve' request e = some result

theorem run_extends {serve serve' : Serve} (hs : Extends serve serve') {script : Script}
    {e : Engine} {result : HookAnswer × Engine} (h : script.run serve e = some result) :
    script.run serve' e = some result := by
  induction script generalizing e with
  | answer a => exact h
  | send request next ih =>
    simp only [Script.run] at h ⊢
    cases hr : serve request e with
    | none => simp [hr] at h
    | some answered =>
      rw [hr] at h
      rw [hs request e answered hr]
      exact ih answered.1 h
  | register className kind hook next _ ih => exact ih h
  | unregister className kind next ih => exact ih h
  | clear next ih => exact ih h
  | note entry next ih => exact ih h

theorem serveWith_extends {serve serve' : Serve} (hs : Extends serve serve') :
    Extends (Engine.serveWith serve) (Engine.serveWith serve') := by
  intro request e result h
  rw [Engine.serveWith_eq] at h ⊢
  cases ha : e.prepare request with
  | inl outcome => rw [ha] at h; exact h
  | inr write =>
    simp only [ha, Engine.carryOut] at h ⊢
    cases hr : (e.hookScript write.call).run serve e with
    | none => simp [hr] at h
    | some answered =>
      rw [hr] at h
      rw [run_extends hs hr]
      exact h

theorem serve_extends_succ (depth : Nat) :
    Extends (Engine.serve depth) (Engine.serve (depth + 1)) := by
  induction depth with
  | zero => exact serveWith_extends fun _ _ _ h => by cases h
  | succ depth ih => exact serveWith_extends ih

theorem serve_extends {k n : Nat} (h : k ≤ n) : Extends (Engine.serve k) (Engine.serve n) := by
  induction h with
  | refl => exact fun _ _ _ hr => hr
  | step _ ih =>
    exact fun request e result hr => serve_extends_succ _ request e result (ih request e result hr)

theorem serve_of_prepare {e : Engine} {request : Request} {outcome : Outcome}
    (h : e.prepare request = .inl outcome) (depth : Nat) :
    Engine.serve depth request e = some (outcome, e) := by
  cases depth <;> simp only [Engine.serve, Engine.serveWith_eq, h]

variable {script : Script} {e e' : Engine} {waiting : List (Write × (Outcome → Script))}
  {last : HookAnswer}

/-- A script comes to an answer at some depth of nesting, and at most `n` steps lead from there to
the last answer. -/
def Answers (n : Nat) (e : Engine) (script : Script) (waiting : List (Write × (Outcome → Script)))
    (e' : Engine) (last : HookAnswer) : Prop :=
  ∃ depth answer e₁ k, k ≤ n ∧ script.run (Engine.serve depth) e = some (answer, e₁) ∧
    (Moment.mk e₁ (.answer answer) waiting).after k = ⟨e', .answer last, []⟩

theorem Answers.of_run_eq {n : Nat} {next : Script} {e₀ : Engine}
    (h : Answers n e₀ next waiting e' last)
    (hrun : ∀ depth, script.run (Engine.serve depth) e = next.run (Engine.serve depth) e₀) :
    Answers (n + 1) e script waiting e' last := by
  obtain ⟨depth, answer, e₁, k, hk, hr, ha⟩ := h
  exact ⟨depth, answer, e₁, k, Nat.le_succ_of_le hk, (hrun depth).trans hr, ha⟩

theorem Answers.send {n depth : Nat} {request : Request} {next : Outcome → Script} {write : Write}
    {answer : HookAnswer} {e₁ e₂ : Engine} {outcome : Outcome} (hp : e.prepare request = .inr write)
    (hr : (e.hookScript write.call).run (Engine.serve depth) e = some (answer, e₁))
    (hf : write.finish answer e₁ = some (outcome, e₂))
    (h : Answers n e₂ (next outcome) waiting e' last) :
    Answers n e (.send request next) waiting e' last := by
  obtain ⟨depth', answer', e₃, k, hk, hr', ha⟩ := h
  have hserve : Engine.serve (depth + 1) request e = some (outcome, e₂) := by
    simp only [Engine.serve, Engine.serveWith_eq, hp, Engine.carryOut, hr, hf]
  have hmax := serve_extends (Nat.le_max_left (depth + 1) depth') request e _ hserve
  refine ⟨max (depth + 1) depth', answer', e₃, k, hk, ?_, ha⟩
  rw [Script.run, hmax]
  exact run_extends (serve_extends (Nat.le_max_right _ _)) hr'

theorem next?_answer_of_after {n : Nat} {answer : HookAnswer} {write : Write}
    {sender : Outcome → Script}
    (h : (Moment.mk e (.answer answer) ((write, sender) :: waiting)).after n =
      ⟨e', .answer last, []⟩) :
    ∃ k outcome e₁, n = k + 1 ∧ write.finish answer e = some (outcome, e₁) ∧
      (Moment.mk e₁ (sender outcome) waiting).after k = ⟨e', .answer last, []⟩ := by
  cases n with
  | zero => cases congrArg Moment.waiting h
  | succ k =>
    cases hf : write.finish answer e with
    | none =>
      rw [after_of_next_none (next?_of_finish_none hf sender waiting)] at h
      cases congrArg Moment.waiting h
    | some result =>
      obtain ⟨outcome, e₁⟩ := result
      rw [after_succ, step_of_next (next?_of_finish hf sender waiting)] at h
      exact ⟨k, outcome, e₁, rfl, rfl, h⟩

/-- The induction is on the number of steps: what a script does before it answers leaves fewer of
them to the rest. -/
theorem answers_of_after (n : Nat)
    (h : (Moment.mk e script waiting).after n = ⟨e', .answer last, []⟩) :
    Answers n e script waiting e' last := by
  induction n using Nat.strongRecOn generalizing script e waiting with
  | _ n ih =>
    have plain (next : Script) (e₀ : Engine)
        (hn : (Moment.mk e script waiting).next? = some ⟨e₀, next, waiting⟩)
        (hne : script ≠ .answer last)
        (hrun : ∀ depth, script.run (Engine.serve depth) e = next.run (Engine.serve depth) e₀) :
        Answers n e script waiting e' last := by
      cases n with
      | zero => exact absurd (congrArg Moment.script h) hne
      | succ n =>
        rw [after_succ, step_of_next hn] at h
        exact (ih n (Nat.lt_succ_self n) h).of_run_eq hrun
    cases script with
    | answer a => exact ⟨0, a, e, n, Nat.le_refl n, rfl, h⟩
    | register className kind hook next => exact plain _ _ rfl nofun fun _ => rfl
    | unregister className kind next => exact plain _ _ rfl nofun fun _ => rfl
    | clear next => exact plain _ _ rfl nofun fun _ => rfl
    | note entry next => exact plain _ _ rfl nofun fun _ => rfl
    | send request next =>
      cases hp : e.prepare request with
      | inl outcome =>
        refine plain (next outcome) e (next?_of_outcome hp next waiting) nofun fun depth => ?_
        rw [Script.run, serve_of_prepare hp]
      | inr write =>
        cases n with
        | zero => cases congrArg Moment.script h
        | succ n =>
          rw [after_succ, step_of_next (next?_of_write hp next waiting)] at h
          obtain ⟨depth, answer, e₁, k, hk, hr, ha⟩ := ih n (Nat.lt_succ_self n) h
          obtain ⟨k, outcome, e₂, rfl, hf, ha⟩ := next?_answer_of_after ha
          obtain ⟨depth', answer', e₃, j, hj, hr', ha'⟩ :=
            Answers.send hp hr hf (ih k (by omega) ha)
          exact ⟨depth', answer', e₃, j, by omega, hr', ha'⟩

/-- The moments of a script end with just the answer and the engine that the script comes to at some
depth of nesting. -/
theorem reaches_answer_iff {answer : HookAnswer} :
    Reaches ⟨e, script, []⟩ ⟨e', .answer answer, []⟩ ↔
      ∃ depth, script.run (Engine.serve depth) e = some (answer, e') := by
  constructor
  · rintro ⟨n, h⟩
    obtain ⟨depth, a, e₁, k, -, hr, ha⟩ := answers_of_after n h
    rw [after_of_next_none rfl] at ha
    cases ha
    exact ⟨depth, hr⟩
  · rintro ⟨depth, h⟩
    exact reaches_of_run (followed_serve depth) h []

end Moment

end DocumentStore
