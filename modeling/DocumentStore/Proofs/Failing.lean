import DocumentStore.Proofs.Run

/-!
Requests that fail. Such a request leaves the engine to whoever comes next just as its hook has left
it, and where it has reached no hook, just as it found it.
-/

namespace DocumentStore

def Fails : Outcome → Prop
  | .error _ => True
  | .ok response => response.status = 404

theorem not_fails_ok {response : Response} (h : response.isSuccess = true) :
    ¬ Fails (.ok response) := by
  intro (hs : response.status = 404)
  simp [Response.isSuccess, hs] at h

namespace Engine

variable {nested : Serve} {e e₁ e' : Engine} {request : Request} {write : Write}
  {answer : HookAnswer} {outcome : Outcome}

/-- The hook that a request reaches, and what it is called with. Reads reach none, nor do writes
that fail before. -/
def reached? (e : Engine) (request : Request) : Option (Hook × HookRequest) :=
  match e.prepare request with
  | .inl _ => none
  | .inr write =>
    (e.hooks.get? write.call.className write.call.kind).map fun hook => (hook, write.call)

theorem reached?_of_outcome (h : e.prepare request = .inl outcome) : e.reached? request = none := by
  rw [reached?, h]

theorem reached?_of_write (h : e.prepare request = .inr write) :
    e.reached? request = (e.hooks.get? write.call.className write.call.kind).map fun hook =>
      (hook, write.call) := by
  rw [reached?, h]

theorem eq_of_finish_fails (h : write.finish answer e₁ = some (outcome, e')) (hf : Fails outcome) :
    e' = e₁ := by
  have committed (record : Record) (hc : write.commit record e₁ = some (outcome, e')) :
      e' = e₁ := by
    rcases Moment.commit_cases hc with he | ⟨response, rfl, hs⟩
    · exact he
    · exact absurd hf (not_fails_ok hs)
  cases answer with
  | replacement record => exact committed record h
  | nothing => exact committed write.call.object h
  | rejection value =>
    simp only [Write.finish, Option.some.injEq, Prod.mk.injEq] at h
    exact h.2.symm

theorem run_of_carryOut_fails (h : e.carryOut nested write = some (outcome, e'))
    (hf : Fails outcome) :
    ∃ answer, (e.hookScript write.call).run nested e = some (answer, e') := by
  unfold carryOut at h
  cases hr : (e.hookScript write.call).run nested e with
  | none => simp [hr] at h
  | some result =>
    obtain ⟨answer, e₁⟩ := result
    simp only [hr] at h
    obtain rfl := eq_of_finish_fails h hf
    exact ⟨answer, rfl⟩

/--
A request that comes to a fault, or finds no record, leaves the records of all classes in their
order, the classes that are known and all masks, and with them the whole engine, as they were when
its own hook answered; or as they were when the request came in, if it reached no hook.
-/
theorem failure_keeps_engine (h : serveWith nested request e = some (outcome, e'))
    (hf : Fails outcome) :
    (e.reached? request = none → e' = e) ∧
    ∀ hook call, e.reached? request = some (hook, call) →
      ∃ answer, (hook call).run nested e = some (answer, e') := by
  rw [serveWith_eq] at h
  cases hp : e.prepare request with
  | inl ready =>
    simp only [hp, Option.some.injEq, Prod.mk.injEq] at h
    refine ⟨fun _ => h.2.symm, fun hook call hc => ?_⟩
    rw [reached?_of_outcome hp] at hc
    cases hc
  | inr write =>
    simp only [hp] at h
    obtain ⟨answer, hr⟩ := run_of_carryOut_fails h hf
    rw [reached?_of_write hp]
    unfold hookScript at hr
    cases hk : e.hooks.get? write.call.className write.call.kind with
    | none =>
      simp only [hk, Script.run, Option.some.injEq, Prod.mk.injEq] at hr
      refine ⟨fun _ => hr.2.symm, fun hook call hc => ?_⟩
      cases hc
    | some hook =>
      simp only [hk] at hr
      refine ⟨fun hc => ?_, fun hook' call hc => ?_⟩
      · cases hc
      · obtain ⟨rfl, rfl⟩ := Prod.mk.inj (Option.some.inj hc)
        exact ⟨answer, hr⟩

/-- A hook that deletes the record itself, and then makes a record of another class. -/
def racing : Engine where
  settings := { objectIdLength := 1 }
  contents := ({} : Contents).insert "Item" "1" [("objectId", .str "1")]
  hooks := [(("Item", .beforeDelete), fun _ => .unregister "Item" .beforeDelete
    (.send (.delete "Item" "1") fun _ => .send (.create "Log" .null) fun _ => .answer .nothing))]

theorem failure_keeps_engine_racing :
    ∃ outcome e' hook call, serveWith (serve 0) (.delete "Item" "1") racing = some (outcome, e') ∧
      Fails outcome ∧
      racing.reached? (.delete "Item" "1") = some (hook, call) ∧
      (e'.contents.fetch "Log" "1").isSome = true ∧
      (racing.reached? (.delete "Item" "1") = none → e' = racing) ∧
      ∀ hook call, racing.reached? (.delete "Item" "1") = some (hook, call) →
        ∃ answer, (hook call).run (serve 0) racing = some (answer, e') :=
  ⟨_, _, _, _, rfl, rfl, rfl, rfl, failure_keeps_engine rfl rfl⟩

end Engine

end DocumentStore
