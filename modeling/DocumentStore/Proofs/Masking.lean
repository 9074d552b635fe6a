import DocumentStore.Proofs.Identity
import DocumentStore.Proofs.Including
import DocumentStore.Proofs.Operators
import DocumentStore.Proofs.Reading

/-!
Masks along a run: which writes have hidden a field, and what responses show of the fields that the
engine owns.
-/

namespace DocumentStore

/-- A write that is committed with a record changes a relation at a field of a class, where the
engine looks for one. -/
def Write.Relates (write : Write) (record : Record) (className field : String) : Prop :=
  match write with
  | .create name _ => className = name ∧ field ∉ identityFields ∧ record.RelatesAt field
  | .update name _ _ changes _ _ => className = name ∧ changes.RelatesAt field
  | .delete _ _ _ => False

namespace Moment

variable {className field : String}

def Hides (m : Moment) (className field : String) : Prop := m.engine.contents.Hides className field

instance (m : Moment) (className field : String) : Decidable (m.Hides className field) :=
  inferInstanceAs (Decidable (Contents.Hides _ _ _))

def Relates (m : Moment) (className field : String) : Prop :=
  ∃ write record response, m.Commits write record response ∧ write.Relates record className field

theorem Relates.not_clears {m : Moment} (h : m.Relates className field) : ¬ m.Clears := by
  obtain ⟨write, record, response, hw, -⟩ := h
  obtain ⟨answer, sender, waiting, hs, -⟩ := hw.resumes
  rintro ⟨next, hc⟩
  cases hs.symm.trans hc

theorem Commits.hides_iff {m : Moment} {write : Write} {record : Record} {response : Response}
    (h : m.Commits write record response) (className field : String) :
    m.step.Hides className field ↔
      m.Hides className field ∨ write.Relates record className field := by
  cases write with
  | create name fields =>
    obtain ⟨draft, id, ids, stored, hd, -, -, he, -⟩ := h.create
    rw [Hides, he, Contents.hides_insert, Contents.hides_hide, Draft.relations_ofNew hd]
    exact Iff.rfl
  | update name objectId previous changes draft prepared =>
    obtain ⟨current, stored, -, -, he, -⟩ := h.update
    rw [Hides, he, Contents.hides_insert, Contents.hides_hide, Draft.relations_ofChanges prepared]
    exact Iff.rfl
  | delete name objectId previous =>
    obtain ⟨current, -, he, -⟩ := h.delete
    rw [Hides, he, Contents.hides_erase, Hides, Write.Relates, or_false]

theorem hides_step (m : Moment) (className field : String) :
    m.step.Hides className field ↔
      ¬ m.Clears ∧ (m.Hides className field ∨ m.Relates className field) := by
  by_cases hclear : m.Clears
  · constructor
    · intro h
      rw [Hides, hclear.step_engine] at h
      exact absurd h (Contents.not_hides_empty className field)
    · exact fun h => absurd hclear h.1
  · constructor
    · intro h
      refine ⟨hclear, ?_⟩
      rcases m.step_effect with hq | ⟨hc, -⟩ | ⟨write, record, response, hw⟩
      · exact .inl (by rw [Hides, ← hq.contents]; exact h)
      · exact absurd hc hclear
      · exact ((hw.hides_iff className field).mp h).imp_right fun hr =>
          ⟨write, record, response, hw, hr⟩
    · rintro ⟨-, h | ⟨write, record, response, hw, hr⟩⟩
      · rcases m.step_effect with hq | ⟨hc, -⟩ | ⟨write, record, response, hw⟩
        · rw [Hides, hq.contents]
          exact h
        · exact absurd hc hclear
        · exact (hw.hides_iff className field).mpr (.inl h)
      · exact (hw.hides_iff className field).mpr (.inr hr)

def UpdateRelates (m : Moment) (className field : String) : Prop :=
  ∃ objectId stored changes draft prepared record response,
    m.Commits (.update className objectId stored changes draft prepared) record response ∧
      changes.RelatesAt field

/-- A create does not look at the fields that the engine owns, and an update does. -/
theorem relates_iff_of_mem_identityFields (m : Moment) (hf : field ∈ identityFields) :
    m.Relates className field ↔ m.UpdateRelates className field := by
  constructor
  · rintro ⟨write, record, response, hw, hr⟩
    cases write with
    | create name fields => exact absurd hf hr.2.1
    | update name objectId stored changes draft prepared =>
      obtain ⟨rfl, hr⟩ := hr
      exact ⟨objectId, stored, changes, draft, prepared, record, response, hw, hr⟩
    | delete name objectId stored => cases hr
  · rintro ⟨objectId, stored, changes, draft, prepared, record, response, hw, hr⟩
    exact ⟨_, record, response, hw, rfl, hr⟩

end Moment

namespace Contents

def ShowsIdentity (c : Contents) (className : String) (stored shown : Record) : Prop :=
  ∀ field ∈ identityFields, ∃ v, KeyMap.get? stored field = some v ∧
    KeyMap.get? shown field = if c.Hides className field then none else some v

def Displays (c : Contents) (className objectId : String) (body : Value) : Prop :=
  ∃ stored shown, c.fetch className objectId = some stored ∧ body = .obj shown ∧
    c.ShowsIdentity className stored shown ∧
    ∀ key,
      FieldGrown c c.ShowsIdentity (if c.Hides className key then none else KeyMap.get? stored key)
      (KeyMap.get? shown key)

def Identifies (c : Contents) : Prop :=
  ∀ className objectId record, c.fetch className objectId = some record →
    ∀ field ∈ identityFields, ∃ text, KeyMap.get? record field = some (.str text)

theorem Identifies.settled {c : Contents} (h : c.Identifies) : Settled c c.ShowsIdentity := by
  intro className objectId stored shown hf hgrows field hfield
  obtain ⟨text, htext⟩ := h className objectId stored hf field hfield
  refine ⟨.str text, htext, ?_⟩
  have hgrown := hgrows field
  rw [expanded, get?_visible, KeyMap.get?_overlay, htext, Option.some_or] at hgrown
  split
  · rename_i hh
    rw [if_pos hh] at hgrown
    exact hgrown.none_left
  · rename_i hh
    rw [if_neg hh] at hgrown
    exact hgrown.of_text

theorem Identifies.displays {c : Contents} (h : c.Identifies) {className objectId : String}
    {stored : Record} (hf : c.fetch className objectId = some stored) (paths : List IncludePath) :
    c.Displays className objectId (.obj (c.visible className (includeAll c paths stored))) := by
  have hgrown := recordGrown_includeAll h.settled paths stored
  refine ⟨stored, _, hf, rfl, fun field hfield => ?_, fun key => ?_⟩
  · obtain ⟨text, htext⟩ := h className objectId stored hf field hfield
    have hfield' := hgrown field
    rw [htext] at hfield'
    rw [get?_visible, hfield'.of_text]
    exact ⟨.str text, htext, rfl⟩
  · rw [get?_visible]
    split
    · exact .absent
    · exact hgrown key

end Contents

namespace Run

theorem hides_iff (r : Run) (n : Nat) (className field : String) :
    (r.moment n).Hides className field ↔
      ∃ k < n, (r.moment k).Relates className field ∧ ∀ j, k < j → j < n →
        ¬ (r.moment j).Clears := by
  induction n with
  | zero =>
    constructor
    · exact fun h => absurd h (Contents.not_hides_empty className field)
    · rintro ⟨k, hk, -⟩
      omega
  | succ n ih =>
    rw [show r.moment (n + 1) = (r.moment n).step from rfl, Moment.hides_step, ih]
    constructor
    · rintro ⟨hclear, ⟨k, hk, hr, hkept⟩ | hr⟩
      · refine ⟨k, by omega, hr, fun j hkj hj => ?_⟩
        rcases Nat.lt_succ_iff_lt_or_eq.mp hj with hj | rfl
        · exact hkept j hkj hj
        · exact hclear
      · exact ⟨n, by omega, hr, fun j hnj hj => by omega⟩
    · rintro ⟨k, hk, hr, hkept⟩
      rcases Nat.lt_succ_iff_lt_or_eq.mp hk with hk | rfl
      · exact ⟨hkept n hk (by omega), .inl ⟨k, hk, hr, fun j hkj hj => hkept j hkj (by omega)⟩⟩
      · exact ⟨hr.not_clears, .inr hr⟩

theorem identifies (r : Run) (n : Nat) : (r.moment n).engine.contents.Identifies := by
  intro className objectId record hf field hfield
  obtain ⟨-, createdAt, k, hi, -⟩ := r.keptSince_of_fetch n hf
  simp only [identityFields, List.mem_cons, List.not_mem_nil, or_false] at hfield
  rcases hfield with rfl | rfl | rfl
  · exact ⟨objectId, hi.objectId⟩
  · exact ⟨createdAt, hi.createdAt⟩
  · exact hi.updatedAt

theorem displays_created (r : Run) (n : Nat) {className : String} {fields record : Record}
    {response : Response} (h : (r.moment n).Commits (.create className fields) record response) :
    ∃ objectId, (r.moment (n + 1)).engine.contents.Displays className objectId response.body := by
  obtain ⟨draft, objectId, ids, stored, -, -, -, he, hr⟩ := h.create
  have hf : (r.moment (n + 1)).engine.contents.fetch className objectId = some stored := by
    rw [show (r.moment (n + 1)).engine = (r.moment n).step.engine from rfl, he,
      Contents.fetch_insert, if_pos ⟨rfl, rfl⟩]
  refine ⟨objectId, ?_⟩
  rw [hr]
  exact (r.identifies (n + 1)).displays hf []

/--
A class hides a field that the engine owns just where an update has committed whose payload changes
a relation at it, and nothing has been cleared since. The records that creates, reads and queries
answer with, and those that includes put into them, have all three fields with their stored values,
but for the hidden ones.
-/
theorem identity_shown (r : Run) (n : Nat) :
    (∀ className, ∀ field ∈ identityFields, (r.moment n).Hides className field ↔
      ∃ k < n, (r.moment k).UpdateRelates className field ∧
        ∀ j, k < j → j < n → ¬ (r.moment j).Clears) ∧
    (∀ className fields record response,
      (r.moment n).Commits (.create className fields) record response →
      ∃ objectId, (r.moment (n + 1)).engine.contents.Displays className objectId response.body) ∧
    (∀ className objectId payload response,
      (r.moment n).engine.contents.readOne className objectId payload = .ok response →
      response.status = 200 →
      (r.moment n).engine.contents.Displays className objectId response.body) ∧
    ∀ className payload response,
      (r.moment n).engine.contents.query r.settings className payload = .ok response →
      ∃ params results, ReadParams.ofPayload payload = .ok params ∧
        response.body.field? "results" = some (.arr results) ∧ ∀ item ∈ results, ∃ objectId,
          (r.moment n).engine.contents.Displays
            ((r.moment n).engine.contents.targetClass className params) objectId item := by
  refine ⟨fun className field hfield => ?_,
    fun className fields record response h => r.displays_created n h,
    fun className objectId payload response h hstatus => ?_, fun className payload response h => ?_⟩
  · rw [r.hides_iff]
    simp only [Moment.relates_iff_of_mem_identityFields _ hfield]
  · obtain ⟨params, -, ⟨-, rfl⟩ | ⟨stored, hf, rfl⟩⟩ := Contents.readOne_eq_ok h
    · cases hstatus
    · exact (r.identifies n).displays hf params.includes
  · obtain ⟨params, results, hp, -, hr, hitems⟩ := Contents.query_eq_ok h
    refine ⟨params, results, hp, hr, fun item hi => ?_⟩
    obtain ⟨objectId, stored, hf, rfl⟩ := hitems item hi
    exact ⟨objectId, (r.identifies n).displays hf params.includes⟩

/-- A batch deletes the id of a record and then adds nothing to the relation there. -/
def veil : Run where
  settings := { objectIdLength := 1 }
  usable := Settings.valid_shortest
  clock := {}
  ids := {}
  client := .send (.create "Item" .null) fun _ =>
    .send (.update "Item" "1" (.obj [("objectId", .obj [("__op", .str "Batch"), ("ops", .arr [
      .obj [("__op", .str "Delete")],
        .obj [("__op", .str "AddRelation"), ("objects", .arr [])]])])])) fun _ =>
    .answer .nothing

theorem veil_hides_objectId :
    (veil.moment 4).Hides "Item" "objectId" ∧ ∃ response,
      (veil.moment 4).engine.contents.readOne "Item" "1" .null = .ok response ∧
      response.status = 200 ∧
        response.body.field? "objectId" = none :=
  ⟨by decide +kernel, _, rfl, rfl, rfl⟩

end Run

end DocumentStore
