import DocumentStore.Engine.Writing
import DocumentStore.Proofs.Contents

/-!
Update operators in a payload: which fields they are in, which of them change a relation, and what
they leave alone.
-/

namespace DocumentStore

def Record.RelatesAt (record : Record) (field : String) : Prop :=
  ∃ v op, (field, v) ∈ record ∧ UpdateOp.parse field v = .ok (some op) ∧ op.touchesRelation = true

namespace UpdateOp

theorem extract_cons {field : String} {v : Value} {rest literals : Record}
    {ops : List (String × UpdateOp)} (h : extract ((field, v) :: rest) = .ok (ops, literals)) :
    ∃ op ops' literals', parse field v = .ok op ∧ extract rest = .ok (ops', literals') ∧
      ops = (op.map (field, ·)).toList ++ ops' ∧
      literals = (if op.isNone then [(field, v)] else []) ++ literals' := by
  simp only [extract, bind_eq_ok_iff] at h
  obtain ⟨op, hp, ⟨ops', literals'⟩, he, h⟩ := h
  refine ⟨op, ops', literals', hp, he, ?_⟩
  cases op with
  | none =>
    obtain ⟨rfl, rfl⟩ := Prod.mk.inj (Except.ok.inj h)
    exact ⟨rfl, rfl⟩
  | some op =>
    obtain ⟨rfl, rfl⟩ := Prod.mk.inj (Except.ok.inj h)
    exact ⟨rfl, rfl⟩

theorem mem_extract {changes literals : Record} {ops : List (String × UpdateOp)}
    (h : extract changes = .ok (ops, literals)) (field : String) (op : UpdateOp) :
    (field, op) ∈ ops ↔ ∃ v, (field, v) ∈ changes ∧ parse field v = .ok (some op) := by
  induction changes generalizing ops literals with
  | nil =>
    simp only [extract, Except.ok.injEq, Prod.mk.injEq] at h
    simp [← h.1]
  | cons e rest ih =>
    obtain ⟨key, v⟩ := e
    obtain ⟨parsed, ops', literals', hp, he, rfl, -⟩ := extract_cons h
    rw [List.mem_append, ih he]
    constructor
    · rintro (hm | ⟨w, hw, hwp⟩)
      · cases parsed with
        | none => simp at hm
        | some first =>
          simp only [Option.map_some, Option.toList_some, List.mem_singleton, Prod.mk.injEq] at hm
          obtain ⟨rfl, rfl⟩ := hm
          exact ⟨v, List.mem_cons_self, hp⟩
      · exact ⟨w, List.mem_cons_of_mem _ hw, hwp⟩
    · rintro ⟨w, hw, hwp⟩
      rcases List.mem_cons.mp hw with heq | hw
      · obtain ⟨rfl, rfl⟩ := Prod.mk.inj heq
        obtain rfl : parsed = some op := Except.ok.inj (hp.symm.trans hwp)
        exact .inl (by simp)
      · exact .inr ⟨w, hw, hwp⟩

theorem literals_sublist {changes literals : Record} {ops : List (String × UpdateOp)}
    (h : extract changes = .ok (ops, literals)) : literals.Sublist changes := by
  induction changes generalizing ops literals with
  | nil =>
    obtain ⟨-, rfl⟩ := Prod.mk.inj (Except.ok.inj h)
    exact .slnil
  | cons e rest ih =>
    obtain ⟨key, v⟩ := e
    obtain ⟨parsed, ops', literals', -, he, -, rfl⟩ := extract_cons h
    cases parsed with
    | none => exact (ih he).cons_cons (key, v)
    | some op => exact (ih he).cons (key, v)

theorem mem_keys_of_mem_literals {changes literals : Record} {ops : List (String × UpdateOp)}
    (h : extract changes = .ok (ops, literals)) {field : String}
    (hf : field ∈ KeyMap.keys literals) :
    field ∈ KeyMap.keys changes :=
  ((literals_sublist h).map (·.1)).subset hf

theorem get?_setField_self (record : Record) (field : String) (value : Option Value) :
    KeyMap.get? (setField record field value) field = value := by
  cases value with
  | none => exact KeyMap.get?_erase_self record field
  | some v => exact KeyMap.get?_insert_self record field v

theorem get?_setField_of_ne (record : Record) {field other : String} (value : Option Value)
    (h : other ≠ field) :
    KeyMap.get? (setField record field value) other = KeyMap.get? record other := by
  cases value with
  | none => exact KeyMap.get?_erase_of_ne record h
  | some v => exact KeyMap.get?_insert_of_ne record v h

theorem get?_applyAll_of_notMem {record result : Record} {ops : List (String × UpdateOp)}
    (h : applyAll record ops = .ok result) {field : String} (hf : field ∉ ops.map (·.1)) :
    KeyMap.get? result field = KeyMap.get? record field := by
  induction ops generalizing record with
  | nil =>
    obtain rfl : record = result := Except.ok.inj h
    rfl
  | cons e ops ih =>
    obtain ⟨key, op⟩ := e
    simp only [applyAll, bind_eq_ok_iff] at h
    obtain ⟨value, -, h⟩ := h
    rw [List.map_cons, List.mem_cons, not_or] at hf
    rw [ih h hf.2, get?_setField_of_ne record value hf.1]

def Leaves (op : UpdateOp) (record : Record) (field : String) (value : Option Value) : Prop :=
  ∃ after, applyAll record [(field, op)] = .ok after ∧ KeyMap.get? after field = value ∧
    ∀ other, other ≠ field → KeyMap.get? after other = KeyMap.get? record other

theorem leaves_of_result {op : UpdateOp} {record : Record} {field : String} {value : Option Value}
    (h : op.result field (KeyMap.get? record field) = .ok value) :
    op.Leaves record field value := by
  refine ⟨setField record field value, ?_, get?_setField_self record field value,
    fun other hne => ?_⟩
  · rw [applyAll, h]
    rfl
  · exact get?_setField_of_ne record value hne

theorem mem_relationFields (ops : List (String × UpdateOp)) (field : String) :
    field ∈ relationFields ops ↔ ∃ op, (field, op) ∈ ops ∧ op.touchesRelation = true := by
  have collected (fields : List String) (ops : List (String × UpdateOp)) :
      field ∈ ops.foldl
          (fun fields e => if fields.contains e.1 then fields else fields ++ [e.1]) fields ↔
        field ∈ fields ∨ field ∈ ops.map (·.1) := by
    induction ops generalizing fields with
    | nil => simp
    | cons e ops ih =>
      rw [List.foldl_cons, ih, List.map_cons, List.mem_cons]
      split
      · rename_i hc
        have hmem : e.1 ∈ fields := by simpa using hc
        constructor
        · rintro (h | h)
          · exact .inl h
          · exact .inr (.inr h)
        · rintro (h | rfl | h)
          · exact .inl h
          · exact .inl hmem
          · exact .inr h
      · rw [List.mem_append, List.mem_singleton, or_assoc]
  rw [relationFields, collected, List.mem_map]
  constructor
  · rintro (h | ⟨⟨key, op⟩, hm, rfl⟩)
    · cases h
    · exact ⟨op, List.mem_filter.mp hm⟩
  · rintro ⟨op, hm⟩
    exact .inr ⟨(field, op), List.mem_filter.mpr hm, rfl⟩

end UpdateOp

namespace Draft

theorem ofChanges_eq_ok {stored changes : Record} {draft : Draft}
    (h : ofChanges stored changes = .ok draft) :
    ∃ ops literals, UpdateOp.extract changes = .ok (ops, literals) ∧
      UpdateOp.applyAll (KeyMap.overlay stored (KeyMap.without literals identityFields)) ops =
        .ok draft.record ∧
      draft.relations = UpdateOp.relationFields ops := by
  simp only [ofChanges, bind_eq_ok_iff] at h
  obtain ⟨⟨ops, literals⟩, he, record, ha, h⟩ := h
  obtain rfl : ⟨record, UpdateOp.relationFields ops⟩ = draft := Except.ok.inj h
  exact ⟨ops, literals, he, ha, rfl⟩

theorem ofNew_eq_ok {fields : Record} {draft : Draft} (h : ofNew fields = .ok draft) :
    ∃ ops literals, UpdateOp.extract (KeyMap.without fields identityFields) = .ok (ops, literals) ∧
      UpdateOp.applyAll literals ops = .ok draft.record ∧
      draft.relations = UpdateOp.relationFields ops := by
  simp only [ofNew, bind_eq_ok_iff] at h
  obtain ⟨⟨ops, literals⟩, he, record, ha, h⟩ := h
  obtain rfl : ⟨record, UpdateOp.relationFields ops⟩ = draft := Except.ok.inj h
  exact ⟨ops, literals, he, ha, rfl⟩

theorem get?_ofChanges {stored changes : Record} {draft : Draft}
    (h : ofChanges stored changes = .ok draft) {field : String} (hf : field ∉ KeyMap.keys changes) :
    KeyMap.get? draft.record field = KeyMap.get? stored field := by
  obtain ⟨ops, literals, he, ha, -⟩ := ofChanges_eq_ok h
  have hops : field ∉ ops.map (·.1) := by
    intro hm
    obtain ⟨⟨key, op⟩, hop, rfl⟩ := List.mem_map.mp hm
    obtain ⟨v, hv, -⟩ := (UpdateOp.mem_extract he key op).mp hop
    exact hf (List.mem_map_of_mem hv)
  have hliterals : KeyMap.get? literals field = none :=
    (KeyMap.get?_eq_none_iff literals field).mpr fun hm =>
      hf (UpdateOp.mem_keys_of_mem_literals he hm)
  rw [UpdateOp.get?_applyAll_of_notMem ha hops, KeyMap.get?_overlay, KeyMap.get?_without,
    hliterals, ite_self, Option.none_or]

theorem mem_relations_iff {changes literals : Record} {ops : List (String × UpdateOp)}
    (he : UpdateOp.extract changes = .ok (ops, literals)) (field : String) :
    field ∈ UpdateOp.relationFields ops ↔ changes.RelatesAt field := by
  rw [UpdateOp.mem_relationFields]
  constructor
  · rintro ⟨op, hm, ht⟩
    obtain ⟨v, hv, hp⟩ := (UpdateOp.mem_extract he field op).mp hm
    exact ⟨v, op, hv, hp, ht⟩
  · rintro ⟨v, op, hv, hp, ht⟩
    exact ⟨op, (UpdateOp.mem_extract he field op).mpr ⟨v, hv, hp⟩, ht⟩

/-- An update hides the fields at which its payload changes a relation, whichever they are. -/
theorem relations_ofChanges {stored changes : Record} {draft : Draft}
    (h : ofChanges stored changes = .ok draft) (field : String) :
    field ∈ draft.relations ↔ changes.RelatesAt field := by
  obtain ⟨ops, literals, he, -, hr⟩ := ofChanges_eq_ok h
  rw [hr, mem_relations_iff he]

/-- A create hides such fields too, but none of the three that the engine owns. -/
theorem relations_ofNew {fields : Record} {draft : Draft} (h : ofNew fields = .ok draft)
    (field : String) :
    field ∈ draft.relations ↔ field ∉ identityFields ∧ fields.RelatesAt field := by
  obtain ⟨ops, literals, he, -, hr⟩ := ofNew_eq_ok h
  rw [hr, mem_relations_iff he]
  have hmem (v : Value) :
      (field, v) ∈ KeyMap.without fields identityFields ↔
        field ∉ identityFields ∧ (field, v) ∈ fields := by
    simp only [KeyMap.without, List.mem_filter, List.contains_eq_mem, Bool.not_eq_true',
      decide_eq_false_iff_not]
    exact and_comm
  constructor
  · rintro ⟨v, op, hv, hp, ht⟩
    exact ⟨((hmem v).mp hv).1, v, op, ((hmem v).mp hv).2, hp, ht⟩
  · rintro ⟨hf, v, op, hv, hp, ht⟩
    exact ⟨v, op, (hmem v).mpr ⟨hf, hv⟩, hp, ht⟩

end Draft

end DocumentStore
