import DocumentStore.Engine.Writing
import DocumentStore.Proofs.Contents

/-!
What a commit stores, and what it answers.
-/

namespace DocumentStore

/-- What is stored of a draft: its fields, beside the three that the engine owns. -/
structure Stored (draft : Record) (objectId : String) (createdAt : Option Value)
    (updatedAt : String) (record : Record) : Prop where
  objectId : KeyMap.get? record "objectId" = some (.str objectId)
  createdAt : KeyMap.get? record "createdAt" = createdAt
  updatedAt : KeyMap.get? record "updatedAt" = some (.str updatedAt)
  others : ∀ field, field ∉ identityFields → KeyMap.get? record field = KeyMap.get? draft field

namespace IdSupply

theorem fresh?_eq_some {taken : String → Bool} {length tries : Nat} {s s' : IdSupply} {id : String}
    (h : fresh? taken length tries s = some (id, s')) :
    taken id = false ∧ ∃ bits, id = idOf length bits := by
  induction tries generalizing s with
  | zero => simp [fresh?] at h
  | succ tries ih =>
    simp only [fresh?] at h
    split at h
    · exact ih h
    · rename_i ht
      simp only [Option.some.injEq, Prod.mk.injEq] at h
      obtain ⟨rfl, -⟩ := h
      exact ⟨by simpa using ht, _, rfl⟩

theorem next?_eq_some {length : Nat} {ids : List String} {s s' : IdSupply} {id : String}
    (h : next? length ids s = some (id, s')) : id ∉ ids ∧ ∃ bits, id = idOf length bits := by
  obtain ⟨ht, hb⟩ := fresh?_eq_some h
  exact ⟨by simpa using ht, hb⟩

end IdSupply

namespace Engine

variable {e e' : Engine} {className objectId : String} {response : Response}

theorem commitNew_eq_some {draft : Draft} (h : e.commitNew className draft = some (response, e')) :
    ∃ id ids record,
      e.ids.next? e.settings.objectIdLength (e.contents.collection className).ids = some (id, ids) ∧
      Stored draft.record id (some (.str e.stamp.1)) e.stamp.1 record ∧
      e' = { e with
        ids := ids
        clock := e.clock.read.2
        contents := (e.contents.hide className draft.relations).insert className id record } ∧
      response = .created (.obj (e'.contents.visible className record)) := by
  unfold commitNew at h
  split at h
  · cases h
  · rename_i id ids hid
    simp only [Option.some.injEq, Prod.mk.injEq] at h
    obtain ⟨rfl, rfl⟩ := h
    refine ⟨id, ids, _, hid, ⟨?_, ?_, ?_, ?_⟩, rfl, rfl⟩
    · simp [KeyMap.get?_insert]
    · simp [KeyMap.get?_insert, stamp]
    · simp [KeyMap.get?_insert, stamp]
    · intro field hf
      simp only [identityFields, List.mem_cons, List.not_mem_nil, or_false, not_or] at hf
      simp only [KeyMap.get?_insert, hf, if_false]

theorem commitChanges_of_missing (draft : Draft) (h : e.contents.fetch className objectId = none) :
    e.commitChanges className objectId draft = (.notFound, e) := by
  simp only [commitChanges, h]

theorem commitChanges_of_stored (draft : Draft) {current : Record}
    (h : e.contents.fetch className objectId = some current) :
    ∃ record, Stored draft.record objectId (KeyMap.get? current "createdAt")
        (laterStamp (KeyMap.get? current "updatedAt") e.stamp.1) record ∧
      e.commitChanges className objectId draft =
        (.ok (.obj
          (((e.contents.hide className draft.relations).insert className objectId record).visible
            className (KeyMap.without record ["objectId", "createdAt"]))),
        { e with
          clock := e.clock.read.2
          contents :=
            (e.contents.hide className draft.relations).insert className objectId record }) := by
  simp only [commitChanges, h]
  refine ⟨_, ⟨?_, ?_, ?_, ?_⟩, rfl⟩
  · cases KeyMap.get? current "createdAt" <;> simp [KeyMap.get?_insert, KeyMap.get?_erase]
  · cases KeyMap.get? current "createdAt" <;> simp [KeyMap.get?_insert, KeyMap.get?_erase]
  · simp [KeyMap.get?_insert, stamp]
  · intro field hf
    simp only [identityFields, List.mem_cons, List.not_mem_nil, or_false, not_or] at hf
    cases KeyMap.get? current "createdAt" <;>
      simp only [KeyMap.get?_insert, KeyMap.get?_erase, hf, if_false]

theorem commitRemoval_of_missing (h : e.contents.fetch className objectId = none) :
    e.commitRemoval className objectId = (.notFound, e) := by
  simp only [commitRemoval, h]

theorem commitRemoval_of_stored {current : Record}
    (h : e.contents.fetch className objectId = some current) :
    e.commitRemoval className objectId =
      (.ok (.obj []), { e with contents := e.contents.erase className objectId }) := by
  simp only [commitRemoval, h]

end Engine

end DocumentStore
