import DocumentStore.Proofs.Census
import DocumentStore.Proofs.Membership
import DocumentStore.Proofs.Paging
import DocumentStore.Proofs.Updating

/-!
Relations along a run. A field that only relational updates write lists, at every moment, the
pointers that were added after they were last removed, and a search of any class for the members of
the relation finds the stored records among these.
-/

namespace DocumentStore

open MemberChange

def Write.Updates (write : Write) (className objectId : String) : Prop :=
  match write with
  | .update name id .. => name = className ∧ id = objectId
  | _ => False

namespace Engine

variable {e : Engine} {className objectId : String}

theorem fetch_of_prepare {request : Request} {write : Write} (h : e.prepare request = .inr write)
    (hu : write.Updates className objectId) :
    ∃ stored changes draft prepared,
      write = .update className objectId stored changes draft prepared ∧
      e.contents.fetch className objectId = some stored := by
  obtain ⟨operation, name, id, payload⟩ := request
  cases operation with
  | create =>
    simp only [prepare] at h
    split at h
    · cases h
    · obtain rfl := Sum.inr.inj h
      exact hu.elim
  | read => cases id <;> cases h
  | update =>
    cases id with
    | none => cases h
    | some id =>
      obtain ⟨stored, changes, draft, prepared, hf, -, rfl⟩ := prepare_update_eq_inr h
      obtain ⟨rfl, rfl⟩ := hu
      exact ⟨stored, changes, draft, prepared, rfl, hf⟩
  | delete =>
    cases id with
    | none => cases h
    | some id =>
      simp only [prepare] at h
      split at h
      · cases h
      · obtain rfl := Sum.inr.inj h
        exact hu.elim

end Engine

namespace Moment

variable {m : Moment} {className objectId field : String}

def updated? (m : Moment) (className objectId : String) : Option Record :=
  match m.reply? with
  | some (.update name id _ changes _ _, .ok response) =>
    if name == className && id == objectId && response.status == 200 then some changes else none
  | _ => none

theorem updated?_eq_some {changes : Record} (h : m.updated? className objectId = some changes) :
    ∃ stored draft prepared record response,
      m.Commits (.update className objectId stored changes draft prepared) record response := by
  unfold updated? at h
  split at h
  · rename_i name id stored changes' draft prepared response hr
    simp only [Option.ite_none_right_eq_some, Bool.and_eq_true, beq_iff_eq, Option.some.injEq] at h
    obtain ⟨⟨⟨rfl, rfl⟩, hs⟩, rfl⟩ := h
    obtain ⟨record, hc⟩ := exists_commits_of_reply? hr (by rw [Response.isSuccess, hs]; rfl)
    exact ⟨stored, draft, prepared, record, response, hc⟩
  · cases h

theorem updated?_of_commits {stored changes record : Record} {draft : Draft}
    {prepared : Draft.ofChanges stored changes = .ok draft} {response : Response}
    (h : m.Commits (.update className objectId stored changes draft prepared) record response) :
    m.updated? className objectId = some changes := by
  obtain ⟨_, _, -, -, -, hr⟩ := h.update
  rw [updated?, h.reply?_eq, hr]
  simp [Response.ok]

theorem fetch_step_of_not_updated (h : m.updated? className objectId = none) {before after : Record}
    (hb : m.fetch className objectId = some before)
    (ha : m.step.fetch className objectId = some after) : before = after := by
  cases arrival ha with
  | kept same => exact Option.some.inj (hb.symm.trans same)
  | created _ _ _ _ _ _ _ absent => cases hb.symm.trans absent
  | changed _ _ _ _ _ _ _ commits => cases h.symm.trans (updated?_of_commits commits)

/-- Updates of the record do not wait: one that is prepared has the record as it is stored, and goes
on at once. -/
structure Prompt (m : Moment) (className objectId : String) : Prop where
  top : ∀ write sender waiting,
    m.waiting = (write, sender) :: waiting → write.Updates className objectId →
      m.script = .answer .nothing ∧ ∃ stored changes draft prepared,
        write = .update className objectId stored changes draft prepared ∧
        m.fetch className objectId = some stored
  below : ∀ frame ∈ m.waiting.tail, ¬ frame.1.Updates className objectId

theorem prompt_of_idle (h : ∀ frame ∈ m.waiting, ¬ frame.1.Updates className objectId) :
    m.Prompt className objectId where
  top write sender _ hw hu := absurd hu (h (write, sender) (hw ▸ List.mem_cons_self))
  below frame hf := h frame (List.mem_of_mem_tail hf)

theorem Prompt.idle (h : m.Prompt className objectId) (hs : m.script ≠ .answer .nothing) :
    ∀ frame ∈ m.waiting, ¬ frame.1.Updates className objectId := by
  intro frame hf hu
  cases hw : m.waiting with
  | nil =>
    rw [hw] at hf
    cases hf
  | cons first waiting =>
    rw [hw] at hf
    rcases List.mem_cons.mp hf with rfl | hf
    · exact hs (h.top frame.1 frame.2 waiting hw hu).1
    · exact h.below frame (by rw [hw]; exact hf) hu

theorem Prompt.step (h : m.Prompt className objectId)
    (hhook : m.engine.hooks.get? className .beforeSave = none) :
    m.step.Prompt className objectId := by
  obtain ⟨e, script, waiting⟩ := m
  cases script with
  | answer answer =>
    cases waiting with
    | nil => exact h
    | cons frame waiting =>
      obtain ⟨write, sender⟩ := frame
      cases hf : write.finish answer e with
      | none =>
        rw [Moment.step, next?_of_finish_none hf sender waiting]
        exact h
      | some result =>
        obtain ⟨outcome, e'⟩ := result
        rw [step_of_next (next?_of_finish hf sender waiting)]
        exact prompt_of_idle h.below
  | send request next =>
    have hidle := h.idle fun hs => by cases hs
    cases hp : e.prepare request with
    | inl outcome =>
      rw [step_of_next (next?_of_outcome hp next waiting)]
      exact prompt_of_idle hidle
    | inr write =>
      rw [step_of_next (next?_of_write hp next waiting)]
      refine ⟨fun write' sender waiting' hw hu => ?_, hidle⟩
      obtain ⟨rfl, -⟩ := Prod.mk.inj (List.cons.inj hw).1
      obtain ⟨stored, changes, draft, prepared, rfl, hf⟩ := Engine.fetch_of_prepare hp hu
      refine ⟨?_, stored, changes, draft, prepared, rfl, hf⟩
      show e.hookScript _ = _
      simp only [Engine.hookScript, Write.call]
      rw [hhook]
  | register | unregister | clear | note => exact prompt_of_idle (h.idle fun hs => by cases hs)

def memberChanges (m : Moment) (className objectId field : String) : List MemberChange :=
  (m.updated? className objectId).toList.flatMap (Record.memberChangesAt field)

theorem listsMembers_step (h : m.Prompt className objectId) {before after : Record}
    {history : List MemberChange} (hb : m.fetch className objectId = some before)
    (ha : m.step.fetch className objectId = some after) (hfield : field ∉ identityFields)
    (hr : ListsMembers (KeyMap.get? before field) history)
    (honly : ∀ payload ∈ m.updated? className objectId, payload.OnlyRelates field)
    (hapart : ApartByIds (history ++ m.memberChanges className objectId field)) :
    ListsMembers (KeyMap.get? after field)
      (history ++ m.memberChanges className objectId field) := by
  unfold memberChanges at hapart ⊢
  cases hu : m.updated? className objectId with
  | none =>
    rw [← fetch_step_of_not_updated hu hb ha, Option.toList_none, List.flatMap_nil, List.append_nil]
    exact hr
  | some changes =>
    have honly := honly changes hu
    rw [hu, Option.toList_some, List.flatMap_singleton] at hapart
    rw [Option.toList_some, List.flatMap_singleton]
    obtain ⟨stored, draft, prepared, record, response, hc⟩ := updated?_eq_some hu
    obtain ⟨answer, sender, waiting, hscript, hwaiting, hanswer⟩ := hc.resumes
    obtain ⟨hnothing, stored', changes', draft', prepared', hwrite, hf⟩ :=
      h.top _ sender waiting hwaiting ⟨rfl, rfl⟩
    obtain ⟨current, made, -, hshape, he, -⟩ := hc.update
    -- Nothing has come between the reading of the record and this commit.
    obtain rfl : stored = before := by
      cases hwrite
      exact Option.some.inj (hf.symm.trans hb)
    have hrecord : record = draft.record := by
      rcases hanswer with rfl | ⟨-, hrecord⟩
      · cases hscript.symm.trans hnothing
      · exact hrecord
    have hafter : made = after := by
      rw [fetch, he, Contents.fetch_insert, if_pos ⟨rfl, rfl⟩] at ha
      exact Option.some.inj ha
    rw [← hafter, hshape.others field hfield, hrecord]
    exact Draft.listsMembers_ofChanges prepared hr honly hapart

end Moment

def relatedTo (owner : Pointer) (key : String) : Value :=
  .obj [("where", .obj [("$relatedTo", .obj [("key", .str key), ("object", owner.toValue)])])]

def Clause.membersOf (owner : Pointer) (key : String) : Clause :=
  .and [.record .relatedTo (.obj [("key", .str key), ("object", owner.toValue)])]

theorem Clause.parse_membersOf (owner : Pointer) (key : String) :
    parse (.obj [("$relatedTo", .obj [("key", .str key), ("object", owner.toValue)])]) =
      .ok (.membersOf owner key) := by
  have hkey : Operator.ofKey? "$relatedTo" = some .relatedTo := Operator.ofKey?_key .relatedTo
  rw [parse_single (by decide) (by decide), ofEntry, hkey]
  rfl

theorem ReadParams.ofPayload_relatedTo (owner : Pointer) (key : String) :
    ofPayload (relatedTo owner key) = .ok { filter := some (.membersOf owner key) } := by
  have hfilter := readFilter_of_parse (Clause.parse_membersOf owner key)
  show (readFilter (some (.obj [("$relatedTo", _)])) >>= _) = _
  rw [hfilter]
  rfl

namespace Contents

def members (c : Contents) (owner : Pointer) (key : String) : List Pointer :=
  pointersIn (elements ((c.fetch owner.className owner.objectId).bind (KeyMap.get? · key)))

theorem members_of_fetch (c : Contents) {className objectId : String} {record : Record}
    (h : c.fetch className objectId = some record) (key : String) :
    c.members ⟨className, objectId⟩ key = pointersIn (elements (KeyMap.get? record key)) := by
  rw [members, h, Option.bind_some]

theorem Keyed.matching_membersOf {c : Contents} {className : String} (h : c.Keyed className)
    (owner : Pointer) (key : String) :
    ∃ found, matching c className (.membersOf owner key) = .ok found ∧
      found.map some = ((c.collection className).ids.filter fun id =>
        (c.members owner key).contains ⟨className, id⟩).map (c.fetch className) := by
  refine matching_of_ids fun id record hf => ?_
  have hpointer : memberPointer className record = some ⟨className, id⟩ := by
    rw [memberPointer, h id record hf]
    rfl
  rw [Clause.membersOf, Clause.holds_and_single]
  show Except.ok ((memberPointer className record).any fun p =>
      (c.members owner key).contains p) = _
  rw [hpointer]
  rfl

end Contents

/--
A search of a class finds the records under these ids: those stored among the pointers that were
added after they were last removed, each once and in the order of creation. Every query that asks
for the members is answered from them.
-/
structure Moment.FindsMembers (m : Moment) (nested : Serve) (owner : Pointer) (key target : String)
    (history : List MemberChange) (ids : List String) (found : List Record) : Prop where
  inOrder : ids.Sublist (m.ids target)
  mem_iff : ∀ id, id ∈ ids ↔ id ∈ m.ids target ∧ AddedLast ⟨target, id⟩ history
  matched : matching m.engine.contents target (.membersOf owner key) = .ok found
  stored : found.map some = ids.map (m.fetch target)
  answers :
    m.engine.AnswersWindows nested target (relatedTo owner key)
      (m.engine.contents.listing target {} found)

theorem Moment.exists_findsMembers {m : Moment} {target : String}
    (hkeyed : m.engine.contents.Keyed target) {className objectId : String} {record : Record}
    (hf : m.fetch className objectId = some record) {key : String} {history : List MemberChange}
    (hr : ListsMembers (KeyMap.get? record key) history) (nested : Serve) :
    ∃ ids found, m.FindsMembers nested ⟨className, objectId⟩ key target history ids found := by
  have hmembers : m.engine.contents.members ⟨className, objectId⟩ key =
      pointersIn (elements (KeyMap.get? record key)) :=
    m.engine.contents.members_of_fetch hf key
  obtain ⟨found, hfound, hids⟩ := hkeyed.matching_membersOf ⟨className, objectId⟩ key
  have hmatches :
      m.engine.contents.sortedMatches target
          { filter := some (.membersOf ⟨className, objectId⟩ key) } = .ok found := by
    rw [Contents.sortedMatches_of_unsorted rfl]
    exact hfound
  have hanswers :=
    Engine.answersWindows_of_matches nested (ReadParams.ofPayload_relatedTo _ key) hmatches
  refine ⟨_, found, List.filter_sublist, fun id => ?_, hfound, hids, hanswers⟩
  rw [List.mem_filter, hmembers, List.contains_iff_mem, hr.mem_iff, Moment.ids]

namespace Run

variable {r : Run} {className objectId field : String} {start steps : Nat}

def updates (r : Run) (className objectId : String) (start : Nat) : Nat → List Record
  | 0 => []
  | steps + 1 => r.updates className objectId start steps ++
      ((r.moment (start + steps)).updated? className objectId).toList

def memberHistory (r : Run) (className objectId field : String) (start steps : Nat) :
    List MemberChange :=
  (r.updates className objectId start steps).flatMap (Record.memberChangesAt field)

/--
From a moment on and for so many steps a record is stored, and one field of it, absent at first, is
written as a relation: no hook sees an update of it, neither one that waits at first nor one of
these steps; each update of the record that names the field adds or removes tagged pointers there,
and their ids tell these apart.
-/
structure KeepsRelation (r : Run) (className objectId field : String) (start steps : Nat) :
    Prop where
  stored : ∀ j ≤ steps, ∃ record, r.fetch (start + j) className objectId = some record
  absent :
    ∀ record, r.fetch start className objectId = some record → KeyMap.get? record field = none
  idle : ∀ frame ∈ (r.moment start).waiting, ¬ frame.1.Updates className objectId
  unhooked : ∀ j < steps, (r.moment (start + j)).engine.hooks.get? className .beforeSave = none
  only : ∀ payload ∈ r.updates className objectId start steps, payload.OnlyRelates field
  apart : ApartByIds (r.memberHistory className objectId field start steps)

theorem memberHistory_succ (r : Run) (className objectId field : String) (start steps : Nat) :
    r.memberHistory className objectId field start (steps + 1) =
      r.memberHistory className objectId field start steps ++
        (r.moment (start + steps)).memberChanges className objectId field := by
  rw [memberHistory, updates, List.flatMap_append]
  rfl

theorem KeepsRelation.of_succ (h : r.KeepsRelation className objectId field start (steps + 1)) :
    r.KeepsRelation className objectId field start steps where
  stored j hj := h.stored j (Nat.le_succ_of_le hj)
  absent := h.absent
  idle := h.idle
  unhooked j hj := h.unhooked j (Nat.lt_succ_of_lt hj)
  only payload hp := h.only payload (List.mem_append_left _ hp)
  apart := by
    have happart := h.apart
    rw [memberHistory_succ] at happart
    exact happart.left

theorem KeepsRelation.prompt (h : r.KeepsRelation className objectId field start steps) :
    (r.moment (start + steps)).Prompt className objectId := by
  induction steps with
  | zero => exact Moment.prompt_of_idle h.idle
  | succ steps ih => exact (ih h.of_succ).step (h.unhooked steps (Nat.lt_succ_self steps))

/-- The induction is on the steps since the field was absent. -/
theorem KeepsRelation.listsMembers (h : r.KeepsRelation className objectId field start steps)
    (hfield : field ∉ identityFields) :
    ∃ record, r.fetch (start + steps) className objectId = some record ∧
      ListsMembers (KeyMap.get? record field)
        (r.memberHistory className objectId field start steps) := by
  induction steps with
  | zero =>
    obtain ⟨record, hf⟩ := h.stored 0 (Nat.le_refl 0)
    refine ⟨record, hf, ?_⟩
    rw [h.absent record hf]
    exact .absent
  | succ steps ih =>
    obtain ⟨before, hb, hr⟩ := ih h.of_succ
    obtain ⟨after, ha⟩ := h.stored (steps + 1) (Nat.le_refl _)
    have happart := h.apart
    rw [memberHistory_succ] at happart ⊢
    refine ⟨after, ha,
      Moment.listsMembers_step h.of_succ.prompt hb ha hfield hr (fun payload hp => ?_) happart⟩
    exact h.only payload (List.mem_append_right _ (Option.mem_toList.mpr hp))

/--
A relation has as its members the pointers that were added after they were last removed. Pointers
added twice or removed when they were no members, members that are not stored, and whatever else the
run writes make no difference.
-/
theorem search_finds_members (h : r.KeepsRelation className objectId field start steps)
    (hfield : field ∉ identityFields) (nested : Serve) (target : String) :
    ∃ ids found, (r.moment (start + steps)).FindsMembers nested ⟨className, objectId⟩ field target
      (r.memberHistory className objectId field start steps) ids found := by
  obtain ⟨record, hf, hr⟩ := h.listsMembers hfield
  exact Moment.exists_findsMembers (r.keyed_moment (start + steps) target) hf hr nested

def roster : Run where
  settings := { objectIdLength := 1 }
  usable := Settings.valid_shortest
  clock := {}
  ids := {}
  client :=
    let adding :=
      .obj [("__op", .str "AddRelation"), ("objects", .arr [Pointer.toValue ⟨"User", "2"⟩])]
    let passing (tag : String) :=
      .obj [("__op", .str tag), ("objects", .arr [Pointer.toValue ⟨"User", "x"⟩])]
    .send (.create "Team" .null) fun _ => .send (.create "User" .null) fun _ =>
      .send (.update "Team" "1" (.obj [("members", adding)])) fun _ =>
      .send (.update "Team" "1" (.obj [("members", .obj [("__op", .str "Batch"),
        ("ops", .arr [passing "AddRelation", adding, passing "RemoveRelation"])])])) fun _ =>
          .answer .nothing

theorem memberHistory_roster : roster.memberHistory "Team" "1" "members" 4 4 =
    [.added ⟨"User", "2"⟩, .added ⟨"User", "x"⟩, .added ⟨"User", "2"⟩, .removed ⟨"User", "x"⟩] :=
  rfl

theorem keepsRelation_roster : roster.KeepsRelation "Team" "1" "members" 4 4 where
  stored := by
    have hstored : ∀ j ≤ 4, (roster.fetch (4 + j) "Team" "1").isSome = true := by decide +kernel
    exact fun j hj => Option.isSome_iff_exists.mp (hstored j hj)
  absent record hf := by
    have habsent : (roster.fetch 4 "Team" "1").bind (KeyMap.get? · "members") = none := rfl
    rw [hf] at habsent
    exact habsent
  idle := nofun
  unhooked := by
    have hunhooked :
        ∀ j < 4, ((roster.moment (4 + j)).engine.hooks.get? "Team" .beforeSave).isNone = true := by
      decide +kernel
    exact fun j hj => Option.isNone_iff_eq_none.mp (hunhooked j hj)
  only := by
    have htagged (p : Pointer) : ∀ v ∈ [p.toValue], v.TaggedPointer :=
      List.forall_mem_singleton.mpr ⟨rfl, rfl⟩
    have hadding (p : Pointer) : (UpdateOp.addRelation [p.toValue]).Relational := htagged p
    have hpassing (p : Pointer) : (UpdateOp.removeRelation [p.toValue]).Relational := htagged p
    refine List.forall_mem_cons.mpr ⟨?_, List.forall_mem_singleton.mpr ?_⟩
    · intro v hv
      obtain ⟨-, rfl⟩ := Prod.mk.inj (List.mem_singleton.mp hv)
      exact ⟨_, rfl, hadding _⟩
    · intro v hv
      obtain ⟨-, rfl⟩ := Prod.mk.inj (List.mem_singleton.mp hv)
      exact ⟨_, rfl, hadding _, hadding _, hpassing _, trivial⟩
  apart := by
    rw [memberHistory_roster]
    unfold ApartByIds
    decide

theorem search_finds_members_roster :
    "members" ∉ identityFields ∧ ∃ ids found,
      (roster.moment 8).FindsMembers (Engine.serve 0) ⟨"Team", "1"⟩ "members" "User"
      (roster.memberHistory "Team" "1" "members" 4 4) ids found :=
  ⟨by decide, search_finds_members keepsRelation_roster (by decide) (Engine.serve 0) "User"⟩

end Run

end DocumentStore
