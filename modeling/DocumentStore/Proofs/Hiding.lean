import DocumentStore.Proofs.Masking
import DocumentStore.Proofs.Tracing

/-!
Fields that hold relations. From the commit that changes a relation at a field of a class until
everything is cleared, no response shows that field of a record of the class, neither where the
record stands itself nor where an include has put it.
-/

namespace DocumentStore

namespace UpdateOp

inductive ChangesRelation : UpdateOp → Prop where
  | add (objects : List Value) : ChangesRelation (.addRelation objects)
  | remove (objects : List Value) : ChangesRelation (.removeRelation objects)
  | within {ops : List UpdateOp} {op : UpdateOp} (mem : op ∈ ops) (changes : ChangesRelation op) :
      ChangesRelation (.batch ops)

theorem anyTouchesRelation_of_mem {ops : List UpdateOp} {op : UpdateOp} (hm : op ∈ ops)
    (ht : op.touchesRelation = true) :
    anyTouchesRelation ops = true := by
  induction ops with
  | nil => cases hm
  | cons first ops ih =>
    rw [anyTouchesRelation, Bool.or_eq_true]
    rcases List.mem_cons.mp hm with rfl | hm
    · exact .inl ht
    · exact .inr (ih hm)

theorem ChangesRelation.touchesRelation {op : UpdateOp} (h : op.ChangesRelation) :
    op.touchesRelation = true := by
  induction h with
  | add objects => rfl
  | remove objects => rfl
  | within mem changes ih => exact anyTouchesRelation_of_mem mem ih

mutual

theorem changesRelation_of_touchesRelation :
    ∀ op : UpdateOp, op.touchesRelation = true → op.ChangesRelation
  | .addRelation objects, _ => .add objects
  | .removeRelation objects, _ => .remove objects
  | .batch ops, h => by
    obtain ⟨op, hm, hc⟩ := exists_of_anyTouchesRelation ops h
    exact .within hm hc
  | .increment _, h | .add _, h | .addUnique _, h | .remove _, h | .delete, h => by cases h

theorem exists_of_anyTouchesRelation : ∀ ops : List UpdateOp, anyTouchesRelation ops = true →
    ∃ op ∈ ops, op.ChangesRelation
  | [], h => by cases h
  | op :: ops, h => by
    rw [anyTouchesRelation, Bool.or_eq_true] at h
    rcases h with h | h
    · exact ⟨op, List.mem_cons_self, changesRelation_of_touchesRelation op h⟩
    · obtain ⟨op', hm, hc⟩ := exists_of_anyTouchesRelation ops h
      exact ⟨op', List.mem_cons_of_mem op hm, hc⟩

end

theorem touchesRelation_iff (op : UpdateOp) : op.touchesRelation = true ↔ op.ChangesRelation :=
  ⟨changesRelation_of_touchesRelation op, ChangesRelation.touchesRelation⟩

end UpdateOp

def Record.ChangesRelationAt (record : Record) (field : String) : Prop :=
  ∃ v op, (field, v) ∈ record ∧ UpdateOp.parse field v = .ok (some op) ∧ op.ChangesRelation

theorem Record.relatesAt_iff (record : Record) (field : String) :
    record.RelatesAt field ↔ record.ChangesRelationAt field := by
  simp only [RelatesAt, ChangesRelationAt, UpdateOp.touchesRelation_iff]

namespace Moment

variable {className field : String}

/-- The step commits a create that changes a relation at a field, by its payload or by what its hook
has put for it. -/
def CreateChangesRelation (m : Moment) (className field : String) : Prop :=
  ∃ fields record response, m.Commits (.create className fields) record response ∧
    field ∉ identityFields ∧ record.ChangesRelationAt field

def UpdateChangesRelation (m : Moment) (className field : String) : Prop :=
  ∃ objectId stored changes draft prepared record response,
    m.Commits (.update className objectId stored changes draft prepared) record response ∧
      changes.ChangesRelationAt field

theorem relates_iff (m : Moment) (className field : String) :
    m.Relates className field ↔ m.CreateChangesRelation className field ∨
    m.UpdateChangesRelation className field := by
  constructor
  · rintro ⟨write, record, response, hw, hr⟩
    cases write with
    | create name fields =>
      obtain ⟨rfl, hf, hr⟩ := hr
      exact .inl ⟨fields, record, response, hw, hf, (record.relatesAt_iff field).mp hr⟩
    | update name objectId stored changes draft prepared =>
      obtain ⟨rfl, hr⟩ := hr
      exact .inr ⟨objectId, stored, changes, draft, prepared, record, response, hw,
        (changes.relatesAt_iff field).mp hr⟩
    | delete name objectId stored => cases hr
  · rintro (⟨fields, record, response, hw, hf, hr⟩ |
      ⟨objectId, stored, changes, draft, prepared, record, response, hw, hr⟩)
    · exact ⟨_, record, response, hw, rfl, hf, (record.relatesAt_iff field).mpr hr⟩
    · exact ⟨_, record, response, hw, rfl, (changes.relatesAt_iff field).mpr hr⟩

end Moment

namespace Contents

def Omits (c : Contents) (className : String) (body : Value) : Prop :=
  ∃ shown : Record, body = .obj shown ∧ ∀ field, c.Hides className field → field ∉ KeyMap.keys shown

/-- A body shows a stored record after includes, and neither that record nor any record put into it
has a hidden field. -/
structure Conceals (c : Contents) (className : String) (paths : List IncludePath) (stored : Record)
    (body : Value) :
    Prop where
  shows : body = .obj (Traced.eraseFields (c.traced className paths stored))
  omits : c.Omits className body
  fetched : Traced.ConcealsAll c (c.traced className paths stored)

theorem omits_visible (c : Contents) (className : String) (record : Record) :
    c.Omits className (.obj (c.visible className record)) := by
  refine ⟨_, rfl, fun field hfield => ?_⟩
  rw [← KeyMap.get?_eq_none_iff, get?_visible, if_pos hfield]

theorem conceals_visible (c : Contents) (className : String) (paths : List IncludePath)
    (stored : Record) :
    c.Conceals className paths stored (.obj (c.visible className (includeAll c paths stored))) where
  shows := by rw [eraseFields_traced]
  omits := c.omits_visible className _
  fetched := c.concealsAll_traced className paths stored

end Contents

namespace Run

/--
A class hides just the fields at which a create or an update of it, committed since the last clear,
has changed a relation. The answers to creates and updates, from that commit on, and the records
that reads and queries answer with have no field that their class hides, and nor has any record of
any class that an include has put into them.
-/
theorem relations_hidden (r : Run) (n : Nat) (className : String) :
    (∀ field, (r.moment n).Hides className field ↔
      ∃ k < n, ((r.moment k).CreateChangesRelation className field ∨
        (r.moment k).UpdateChangesRelation className field) ∧
        ∀ j, k < j → j < n → ¬ (r.moment j).Clears) ∧
    (∀ fields record response, (r.moment n).Commits (.create className fields) record response →
      (r.moment (n + 1)).engine.contents.Omits className response.body) ∧
    (∀ objectId stored changes draft prepared record response,
      (r.moment n).Commits (.update className objectId stored changes draft prepared)
        record response →
        (r.moment (n + 1)).engine.contents.Omits className response.body) ∧
    (∀ objectId payload response,
      (r.moment n).engine.contents.readOne className objectId payload = .ok response →
      response.status = 200 →
        ∃ params stored, ReadParams.ofPayload payload = .ok params ∧
          (r.moment n).engine.contents.fetch className objectId = some stored ∧
          (r.moment n).engine.contents.Conceals className params.includes stored response.body) ∧
    ∀ payload response,
      (r.moment n).engine.contents.query r.settings className payload = .ok response →
      ∃ params results, ReadParams.ofPayload payload = .ok params ∧
        response.body.field? "results" = some (.arr results) ∧
        ∀ item ∈ results, ∃ objectId stored,
          (r.moment n).engine.contents.fetch
            ((r.moment n).engine.contents.targetClass className params) objectId = some stored ∧
          (r.moment n).engine.contents.Conceals
            ((r.moment n).engine.contents.targetClass className params)
            params.includes stored item := by
  refine ⟨fun field => ?_, fun fields record response h => ?_,
    fun objectId stored changes draft prepared record response h => ?_,
    fun objectId payload response h hstatus => ?_, fun payload response h => ?_⟩
  · rw [r.hides_iff]
    simp only [Moment.relates_iff]
  · obtain ⟨draft, objectId, ids, stored, -, -, -, -, hr⟩ := h.create
    rw [hr]
    exact Contents.omits_visible _ className stored
  · obtain ⟨current, stored, -, -, -, hr⟩ := h.update
    rw [hr]
    exact Contents.omits_visible _ className _
  · obtain ⟨params, hp, ⟨-, rfl⟩ | ⟨stored, hf, rfl⟩⟩ := Contents.readOne_eq_ok h
    · cases hstatus
    · exact ⟨params, stored, hp, hf, Contents.conceals_visible _ className params.includes stored⟩
  · obtain ⟨params, results, hp, -, hr, hitems⟩ := Contents.query_eq_ok h
    refine ⟨params, results, hp, hr, fun item hi => ?_⟩
    obtain ⟨objectId, stored, hf, rfl⟩ := hitems item hi
    exact ⟨objectId, stored, hf, Contents.conceals_visible _ _ params.includes stored⟩

end Run

end DocumentStore
