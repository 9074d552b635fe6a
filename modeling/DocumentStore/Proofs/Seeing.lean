import DocumentStore.Proofs.Failing
import DocumentStore.Proofs.Literals
import DocumentStore.Proofs.Sorted

/-!
What a hook is shown, and what is stored where it answers nothing. An update shows its draft; a
create shows its payload as it came in, in which operators have not acted yet.
-/

namespace DocumentStore

namespace UpdateOp

theorem get?_literals {changes literals : Record} {ops : List (String × UpdateOp)}
    (h : extract changes = .ok (ops, literals)) {field : String}
    (hv : ∀ v, ¬ changes.HoldsOperator field v) :
    KeyMap.get? literals field = KeyMap.get? changes field := by
  induction changes generalizing ops literals with
  | nil =>
    obtain ⟨-, rfl⟩ := Prod.mk.inj (Except.ok.inj h)
    rfl
  | cons e rest ih =>
    obtain ⟨key, w⟩ := e
    obtain ⟨op, ops', literals', hp, he, -, rfl⟩ := extract_cons h
    have hkind := isSome_of_parse hp
    by_cases hkey : key = field
    · have hw : KeyMap.get? ((key, w) :: rest) field = some w := if_pos hkey
      cases op with
      | none => exact (if_pos hkey).trans hw.symm
      | some op => exact absurd ⟨hw, hkind.symm⟩ (hv w)
    · have hskip (m : Record) : KeyMap.get? ((key, w) :: m) field = KeyMap.get? m field :=
        if_neg hkey
      have hrest := ih he fun v hr => hv v ⟨(hskip rest).trans hr.1, hr.2⟩
      rw [hskip, ← hrest]
      cases op with
      | none => exact hskip literals'
      | some op => rfl

theorem holdsOperator_of_mem_ops (changes : SortedRecord) {literals : Record}
    {ops : List (String × UpdateOp)} (h : extract changes = .ok (ops, literals)) {field : String}
    (hf : field ∈ ops.map (·.1)) :
    ∃ v, changes.1.HoldsOperator field v := by
  obtain ⟨⟨key, op⟩, hop, rfl⟩ := List.mem_map.mp hf
  obtain ⟨v, hv, hparse⟩ := (mem_extract h key op).mp hop
  exact ⟨v, changes.2.get?_of_mem hv, (isSome_of_parse hparse).symm⟩

end UpdateOp

theorem Draft.get?_ofNew_eq_iff (fields : SortedRecord) {draft : Draft}
    (h : ofNew fields = .ok draft) {field : String} (hfield : field ∉ identityFields) :
    KeyMap.get? draft.record field = KeyMap.get? fields.1 field ↔
      ∀ v, ¬ fields.1.HoldsOperator field v := by
  constructor
  · intro heq v hv
    exact not_holdsOperator_ofNew h ⟨heq.trans hv.1, hv.2⟩
  · intro hv
    obtain ⟨ops, literals, he, ha, -⟩ := ofNew_eq_ok h
    have hgiven : KeyMap.get? (KeyMap.without fields.1 identityFields) field =
        KeyMap.get? fields.1 field := by
      rw [KeyMap.get?_without, if_neg hfield]
    have hnone (v : Value) :
        ¬ Record.HoldsOperator (KeyMap.without fields.1 identityFields) field v := by
      intro hw
      exact hv v ⟨hgiven.symm.trans hw.1, hw.2⟩
    -- In order, a payload has no second entry for the field, so no operator acts on it.
    have hops : field ∉ ops.map (·.1) := by
      intro hm
      obtain ⟨v, hw⟩ := UpdateOp.holdsOperator_of_mem_ops (fields.without identityFields) he hm
      exact hnone v hw
    rw [UpdateOp.get?_applyAll_of_notMem ha hops, UpdateOp.get?_literals he hnone, hgiven]

namespace Engine

variable {nested : Serve} {e e₁ e' : Engine} {request : Request} {hook : Hook} {call : HookRequest}
  {response : Response}

theorem exists_write_of_reached (h : e.reached? request = some (hook, call)) :
    ∃ write, e.prepare request = .inr write ∧ write.call = call ∧
      ∀ {nested answer e₁}, (hook call).run nested e = some (answer, e₁) →
        serveWith nested request e = write.finish answer e₁ := by
  cases hp : e.prepare request with
  | inl outcome =>
    rw [reached?_of_outcome hp] at h
    cases h
  | inr write =>
    rw [reached?_of_write hp] at h
    obtain ⟨found, hfound, heq⟩ := Option.map_eq_some_iff.mp h
    obtain ⟨rfl, rfl⟩ := Prod.mk.inj heq
    refine ⟨write, rfl, rfl, fun hr => ?_⟩
    have hscript : e.hookScript write.call = found write.call := by
      simp only [hookScript, hfound]
    rw [serveWith_eq, hp]
    simp only [carryOut, hscript, hr]

/-- The record that a save has stored: an update under the id it names, a create under a new id, the
last of its class. -/
structure Saves (request : Request) (e e' : Engine) (objectId : String) (committed : Record) :
    Prop where
  stored : e'.contents.fetch request.className objectId = some committed
  updated : request.operation = .update → request.objectId = some objectId
  created : request.operation = .create →
    (e'.contents.collection request.className).ids =
      (e.contents.collection request.className).ids ++ [objectId]

theorem saves_of_commitNew {className : String} {payload : Value} {draft : Draft}
    {objectId : Option String} (h : e.commitNew className draft = some (response, e')) :
    ∃ id committed, Saves ⟨.create, className, objectId, payload⟩ e e' id committed ∧
      ∀ field, field ∉ identityFields →
        KeyMap.get? committed field = KeyMap.get? draft.record field := by
  obtain ⟨id, ids, record, hid, hstored, rfl, -⟩ := commitNew_eq_some h
  refine ⟨id, record, ⟨?_, nofun, fun _ => ?_⟩, hstored.others⟩
  · exact (Contents.fetch_insert ..).trans (if_pos ⟨rfl, rfl⟩)
  · have hfresh := (IdSupply.next?_eq_some hid).1
    show ((Contents.insert _ className id record).collection className).ids = _
    rw [Contents.ids_insert, if_pos rfl, Contents.collection_hide]
    exact Collection.ids_insert_of_notMem record hfresh

theorem saves_of_commitChanges {className objectId : String} {payload : Value} {draft : Draft}
    (h : e.commitChanges className objectId draft = (response, e'))
    (hs : response.isSuccess = true) :
    ∃ committed, Saves (.update className objectId payload) e e' objectId committed ∧
      ∀ field, field ∉ identityFields →
        KeyMap.get? committed field = KeyMap.get? draft.record field := by
  cases hf : e.contents.fetch className objectId with
  | none =>
    rw [commitChanges_of_missing draft hf] at h
    rw [← (Prod.mk.inj h).1] at hs
    cases hs
  | some current =>
    obtain ⟨record, hstored, hc⟩ := commitChanges_of_stored draft hf
    rw [hc] at h
    obtain ⟨-, rfl⟩ := Prod.mk.inj h
    refine ⟨record, ⟨?_, fun _ => rfl, nofun⟩, hstored.others⟩
    exact (Contents.fetch_insert ..).trans (if_pos ⟨rfl, rfl⟩)

/--
A save that succeeds and whose hook answers nothing, whatever requests the hook has sent, stores
what the hook was shown: an update at every field that the engine does not own, a create at just
those of them that the hook was not shown an operator at.
-/
theorem saved_as_shown {request : Request.Giving KeyMap.Sorted}
    (h : serveWith nested request e = some (.ok response, e')) (hs : response.isSuccess = true)
    (hr : e.reached? request = some (hook, call)) (hk : call.kind = .beforeSave)
    (ha : (hook call).run nested e = some (.nothing, e₁)) :
    ∃ objectId committed, Saves request e₁ e' objectId committed ∧
      ∀ field, field ∉ identityFields →
        (KeyMap.get? committed field = KeyMap.get? call.object field ↔
        (request.operation = .create → ∀ v, ¬ call.object.HoldsOperator field v)) := by
  obtain ⟨write, hp, rfl, hserve⟩ := exists_write_of_reached hr
  rw [hserve ha] at h
  obtain ⟨⟨operation, className, objectId, payload⟩, hgives⟩ := request
  cases operation with
  | create =>
    simp only [prepare] at hp
    split at hp
    · cases hp
    · rename_i fields hpayload
      obtain rfl := Sum.inr.inj hp
      simp only [Write.finish, Write.commit, Write.call] at h
      split at h
      · cases h
      · rename_i draft hd
        simp only [Option.map_eq_some_iff, Prod.mk.injEq, Except.ok.injEq] at h
        obtain ⟨⟨_, _⟩, hc, rfl, rfl⟩ := h
        obtain ⟨id, committed, hsaves, hothers⟩ := saves_of_commitNew hc
        refine ⟨id, committed, hsaves, fun field hfield => ?_⟩
        rw [hothers field hfield]
        have hsorted : KeyMap.Sorted fields := hgives.ofPayload .nil hpayload
        exact (Draft.get?_ofNew_eq_iff ⟨fields, hsorted⟩ hd hfield).trans
          ⟨fun hv _ => hv, fun hv => hv rfl⟩
  | read => cases objectId <;> cases hp
  | update =>
    cases objectId with
    | none => cases hp
    | some id =>
      obtain ⟨stored, changes, draft, prepared, -, -, rfl⟩ := prepare_update_eq_inr hp
      simp only [Write.finish, Write.commit, Write.call, Option.some.injEq, Prod.mk.injEq,
        Except.ok.injEq] at h
      obtain ⟨hresponse, hengine⟩ := h
      obtain ⟨committed, hsaves, hothers⟩ := saves_of_commitChanges (Prod.ext hresponse hengine) hs
      refine ⟨id, committed, hsaves, fun field hfield =>
        iff_of_true (hothers field hfield) fun hcreate => ?_⟩
      cases hcreate
  | delete =>
    cases objectId with
    | none => cases hp
    | some id =>
      simp only [prepare] at hp
      split at hp
      · cases hp
      · obtain rfl := Sum.inr.inj hp
        cases hk

def watched : Engine where
  settings := { objectIdLength := 1 }
  contents := ({} : Contents).insert "Item" "1" [("count", .num (.ofNat 1)),
    ("createdAt", .str "1970-01-01T00:00:00.000Z"), ("objectId", .str "1"),
    ("updatedAt", .str "1970-01-01T00:00:00.000Z")]
  hooks := [(("Item", .beforeSave), fun _ => .answer .nothing)]

def threeMore : Value := .obj [("__op", .str "Increment"), ("amount", .num (.ofNat 3))]

def counting : Request.Giving KeyMap.Sorted where
  toRequest := .update "Item" "1" (.obj [("count", threeMore)])
  gives _ hfields := Value.obj.inj hfields ▸ List.pairwise_singleton _ _

theorem saved_as_shown_counting :
    ∃ response e' hook call, serveWith (serve 0) counting watched = some (.ok response, e') ∧
      response.isSuccess = true ∧ watched.reached? counting = some (hook, call) ∧
      call.kind = .beforeSave ∧
      (hook call).run (serve 0) watched = some (.nothing, watched) ∧
      ∃ objectId committed, Saves counting watched e' objectId committed ∧
        ∀ field, field ∉ identityFields →
          (KeyMap.get? committed field = KeyMap.get? call.object field ↔
          (counting.operation = .create → ∀ v, ¬ call.object.HoldsOperator field v)) := by
  have hserved : ∃ response e', serveWith (serve 0) counting watched = some (.ok response, e') ∧
      response.isSuccess = true := ⟨_, _, rfl, rfl⟩
  have hshown :
      ∃ hook call, watched.reached? counting = some (hook, call) ∧ call.kind = .beforeSave ∧
      (hook call).run (serve 0) watched = some (.nothing, watched) := ⟨_, _, rfl, rfl, rfl⟩
  obtain ⟨response, e', hserved, hs⟩ := hserved
  obtain ⟨hook, call, hr, hk, ha⟩ := hshown
  exact ⟨response, e', hook, call, hserved, hs, hr, hk, ha, saved_as_shown hserved hs hr hk ha⟩

/-- The hook of a create is shown the operator, and the number is what is stored. -/
theorem watched_create_shows_operator :
    ∃ hook call response e' committed,
      watched.reached? (.create "Item" (.obj [("count", threeMore)])) = some (hook, call) ∧
      call.kind = .beforeSave ∧ hook call = .answer .nothing ∧
      serveWith (serve 0) (.create "Item" (.obj [("count", threeMore)])) watched =
        some (.ok response, e') ∧
      response.isSuccess = true ∧ e'.contents.fetch "Item" "2" = some committed ∧
      KeyMap.get? call.object "count" = some threeMore ∧
      KeyMap.get? committed "count" = some (.num (.ofNat 3)) :=
  ⟨_, _, _, _, _, rfl, rfl, rfl, rfl, rfl, rfl, rfl, rfl⟩

end Engine

end DocumentStore
