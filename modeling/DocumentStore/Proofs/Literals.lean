import DocumentStore.Proofs.Relations

/-!
Operators and literals. What comes out of the operators of a payload is a literal, on creates and on
updates alike; an operator gets into a stored record only where a hook hands one to an update, since
nothing reads the record of a hook again there.
-/

namespace DocumentStore

def Value.isOperator (v : Value) : Bool := (v.field? "__op").isSome

def Record.HoldsOperator (record : Record) (field : String) (v : Value) : Prop :=
  KeyMap.get? record field = some v ∧ v.isOperator = true

namespace UpdateOp

theorem isSome_of_parse {field : String} {v : Value} {op : Option UpdateOp}
    (h : parse field v = .ok op) :
    op.isSome = v.isOperator := by
  cases v with
  | obj fields =>
    show op.isSome = (KeyMap.get? fields "__op").isSome
    cases htag : KeyMap.get? fields "__op" with
    | none =>
      simp only [parse, htag] at h
      exact Except.ok.inj h ▸ rfl
    | some tag =>
      simp only [parse, htag] at h
      split at h
      · rename_i hnone
        cases hnone
      · obtain ⟨ops, -, rfl⟩ := map_eq_ok_iff.mp h
        rfl
      · obtain ⟨op, -, rfl⟩ := map_eq_ok_iff.mp h
        rfl
  | _ => exact Except.ok.inj h ▸ rfl

theorem not_isOperator_of_incremented {field : String} {amount : Number} {current : Option Value}
    {v : Value} (h : incremented field amount current = .ok v) : v.isOperator = false := by
  have total (n : Number) (hn : incremented.sum field amount n = .ok v) : v.isOperator = false := by
    unfold incremented.sum at hn
    split at hn
    · exact Except.ok.inj hn ▸ rfl
    · cases hn
  unfold incremented at h
  split at h
  · exact total .zero h
  · exact total _ h
  · cases h

theorem eq_of_removed {field : String} {objects : List Value} {current : Option Value} {v : Value}
    (h : removed field objects current = .ok (some v)) (hv : v.isOperator = true) :
    current = some v := by
  unfold removed at h
  split at h
  · exact Except.ok.inj h
  · obtain rfl := Option.some.inj (Except.ok.inj h)
    cases hv
  · cases h

theorem not_isOperator_of_list {α : Type} {value : Except Fault α} {list : α → List Value}
    {v : Value} (h : value.map (fun items => some (Value.arr (list items))) = .ok (some v)) :
    v.isOperator = false := by
  obtain ⟨items, -, hitems⟩ := map_eq_ok_iff.mp h
  exact Option.some.inj hitems ▸ rfl

mutual

/-- No operator makes a value that is one: such a value was in the field before. -/
theorem eq_of_result (field : String) : ∀ (op : UpdateOp) {current : Option Value} {v : Value},
    op.result field current = .ok (some v) → v.isOperator = true → current = some v
  | .increment amount, current, v, h, hv => by
    obtain ⟨w, hw, hsome⟩ := map_eq_ok_iff.mp h
    obtain rfl := Option.some.inj hsome
    exact absurd hv (Bool.eq_false_iff.mp (not_isOperator_of_incremented hw))
  | .add _, _, _, h, hv | .addUnique _, _, _, h, hv | .addRelation _, _, _, h, hv =>
    absurd hv (Bool.eq_false_iff.mp (not_isOperator_of_list h))
  | .remove _, _, _, h, hv | .removeRelation _, _, _, h, hv => eq_of_removed h hv
  | .delete, _, _, h, _ => nomatch Except.ok.inj h
  | .batch ops, _, _, h, hv => eq_of_resultOfAll field ops h hv

theorem eq_of_resultOfAll (field : String) :
    ∀ (ops : List UpdateOp) {current : Option Value} {v : Value},
    resultOfAll field ops current = .ok (some v) → v.isOperator = true → current = some v
  | [], _, _, h, _ => Except.ok.inj h
  | op :: ops, current, v, h, hv => by
    simp only [resultOfAll, bind_eq_ok_iff] at h
    obtain ⟨between, hfirst, hrest⟩ := h
    obtain rfl := eq_of_resultOfAll field ops hrest hv
    exact eq_of_result field op hfirst hv

end

theorem holdsOperator_of_applyAll {record result : Record} {ops : List (String × UpdateOp)}
    (h : applyAll record ops = .ok result) {field : String} {v : Value}
    (hv : result.HoldsOperator field v) :
    record.HoldsOperator field v := by
  induction ops generalizing record with
  | nil =>
    obtain rfl : record = result := Except.ok.inj h
    exact hv
  | cons e ops ih =>
    obtain ⟨key, op⟩ := e
    simp only [applyAll, bind_eq_ok_iff] at h
    obtain ⟨value, hvalue, hrest⟩ := h
    obtain ⟨hset, hoperator⟩ := ih hrest
    refine ⟨?_, hoperator⟩
    by_cases hkey : field = key
    · subst hkey
      rw [get?_setField_self] at hset
      subst hset
      exact eq_of_result field op hvalue hoperator
    · rw [get?_setField_of_ne record value hkey] at hset
      exact hset

theorem not_holdsOperator_literals {changes literals : Record} {ops : List (String × UpdateOp)}
    (h : extract changes = .ok (ops, literals)) (field : String) (v : Value) :
    ¬ literals.HoldsOperator field v := by
  intro ⟨hv, hoperator⟩
  have hparse := (parse_of_mem_literals h (KeyMap.mem_of_get? hv)).2
  cases (isSome_of_parse hparse).trans hoperator

end UpdateOp

namespace Draft

variable {draft : Draft} {field : String} {v : Value}

theorem not_holdsOperator_ofNew {fields : Record} (h : ofNew fields = .ok draft) :
    ¬ draft.record.HoldsOperator field v := by
  obtain ⟨ops, literals, he, ha, -⟩ := ofNew_eq_ok h
  intro hv
  exact UpdateOp.not_holdsOperator_literals he field v (UpdateOp.holdsOperator_of_applyAll ha hv)

theorem holdsOperator_of_ofChanges {stored changes : Record}
    (h : ofChanges stored changes = .ok draft) (hv : draft.record.HoldsOperator field v) :
    stored.HoldsOperator field v := by
  obtain ⟨ops, literals, he, ha, -⟩ := ofChanges_eq_ok h
  obtain ⟨hoverlay, hoperator⟩ := UpdateOp.holdsOperator_of_applyAll ha hv
  refine ⟨?_, hoperator⟩
  -- A literal of the payload is no operator, so the value is not from there.
  rw [KeyMap.get?_overlay, KeyMap.get?_without] at hoverlay
  rcases Option.or_eq_some_iff.mp hoverlay with hliteral | ⟨-, hstored⟩
  · have hgiven := (Option.ite_none_left_eq_some.mp hliteral).2
    exact absurd ⟨hgiven, hoperator⟩ (UpdateOp.not_holdsOperator_literals he field v)
  · exact hstored

end Draft

theorem Stored.holdsOperator {draft record : Record} {objectId updatedAt field : String}
    {createdAt : Option Value} {v : Value} (h : Stored draft objectId createdAt updatedAt record)
    (hv : record.HoldsOperator field v) :
    field = "createdAt" ∧ createdAt = some v ∨ field ∉ identityFields ∧
    draft.HoldsOperator field v := by
  obtain ⟨hget, hoperator⟩ := hv
  by_cases hfield : field ∈ identityFields
  · simp only [identityFields, List.mem_cons, List.not_mem_nil, or_false] at hfield
    rcases hfield with rfl | rfl | rfl
    · obtain rfl := Option.some.inj (h.objectId.symm.trans hget)
      cases hoperator
    · exact .inl ⟨rfl, h.createdAt.symm.trans hget⟩
    · obtain rfl := Option.some.inj (h.updatedAt.symm.trans hget)
      cases hoperator
  · exact .inr ⟨hfield, (h.others field hfield).symm.trans hget, hoperator⟩

namespace Moment

variable {m : Moment} {className objectId field : String} {v : Value}

def StoresOperator (m : Moment) (className objectId field : String) (v : Value) : Prop :=
  ∃ record, m.fetch className objectId = some record ∧ record.HoldsOperator field v

/-- A stored record has an operator in a field, or one that an update waits to store. -/
inductive Holds (m : Moment) (className objectId field : String) (v : Value) : Prop where
  | stored (holds : m.StoresOperator className objectId field v)
  | waiting (frame : Write × (Outcome → Script)) (waits : frame ∈ m.waiting)
      (updates : frame.1.Updates className objectId)
      (holds : frame.1.call.object.HoldsOperator field v)

/-- The step commits an update with what its hook has put in the place of the draft, and that has an
operator in the field. -/
def Adopts (m : Moment) (className objectId field : String) (v : Value) : Prop :=
  ∃ write record response, m.Commits write record response ∧ write.Updates className objectId ∧
    m.script = .answer (.replacement record) ∧ field ∉ identityFields ∧ record.HoldsOperator field v

theorem Commits.origin_of_update {previous changes record : Record} {draft : Draft}
    {prepared : Draft.ofChanges previous changes = .ok draft} {response : Response}
    (h : m.Commits (.update className objectId previous changes draft prepared) record response)
    (hfield : field ∉ identityFields) (hv : record.HoldsOperator field v) :
    m.Holds className objectId field v ∨ m.Adopts className objectId field v := by
  rcases h.resumes.cases with hscript | ⟨rfl, sender, hwaits⟩
  · exact .inr ⟨_, record, response, h, ⟨rfl, rfl⟩, hscript, hfield, hv⟩
  · exact .inl (.waiting _ hwaits ⟨rfl, rfl⟩ hv)

theorem origin_of_storesOperator (h : m.step.StoresOperator className objectId field v) :
    m.Holds className objectId field v ∨ m.Adopts className objectId field v := by
  obtain ⟨made, hf, hv⟩ := h
  cases arrival hf with
  | kept same => exact .inl (.stored ⟨made, same, hv⟩)
  | created _ _ _ _ _ _ drafted _ _ shape =>
    rcases shape.holdsOperator hv with ⟨-, hcreated⟩ | ⟨-, hdraft⟩
    · obtain rfl := Option.some.inj hcreated
      cases hv.2
    · exact absurd hdraft (Draft.not_holdsOperator_ofNew drafted)
  | changed _ _ _ current _ _ _ commits before shape =>
    rcases shape.holdsOperator hv with ⟨rfl, hcreated⟩ | ⟨hfield, hrecord⟩
    · exact .inl (.stored ⟨current, before, hcreated, hv.2⟩)
    · exact commits.origin_of_update hfield hrecord

theorem Holds.origin (h : m.step.Holds className objectId field v) :
    m.Holds className objectId field v ∨ m.Adopts className objectId field v := by
  cases h with
  | stored holds => exact origin_of_storesOperator holds
  | waiting frame waits updates holds =>
    rcases mem_waiting_step waits with hbefore | ⟨_, _, -, hp⟩
    · exact .inl (.waiting frame hbefore updates holds)
    -- The update has just been prepared: its draft has the operator from the stored record.
    · obtain ⟨stored, changes, draft, prepared, hwrite, hf⟩ := Engine.fetch_of_prepare hp updates
      rw [hwrite] at holds
      exact .inl (.stored ⟨stored, hf, Draft.holdsOperator_of_ofChanges prepared holds⟩)

theorem Adopts.storesOperator (h : m.Adopts className objectId field v) :
    m.step.StoresOperator className objectId field v := by
  obtain ⟨write, record, response, hc, hu, -, hfield, hget, hoperator⟩ := h
  cases write with
  | create => exact hu.elim
  | delete => exact hu.elim
  | update name id previous changes draft prepared =>
    obtain ⟨rfl, rfl⟩ := hu
    obtain ⟨current, stored, -, hshape, he, -⟩ := hc.update
    refine ⟨stored, ?_, (hshape.others field hfield).trans hget, hoperator⟩
    rw [fetch, he, Contents.fetch_insert, if_pos ⟨rfl, rfl⟩]

end Moment

namespace Run

variable {r : Run} {n : Nat} {className objectId field : String} {v : Value}

theorem adopts_of_holds (h : (r.moment n).Holds className objectId field v) :
    ∃ k < n, (r.moment k).Adopts className objectId field v := by
  induction n with
  | zero =>
    cases h with
    | stored holds =>
      obtain ⟨record, hf, -⟩ := holds
      cases hf
    | waiting frame waits => cases waits
  | succ n ih =>
    rw [moment_succ] at h
    rcases h.origin with hholds | hadopts
    · obtain ⟨k, hk, hadopts⟩ := ih hholds
      exact ⟨k, Nat.lt_succ_of_lt hk, hadopts⟩
    · exact ⟨n, Nat.lt_succ_self n, hadopts⟩

/--
A record has an operator in a field at some moment just where an update of the record has been
committed with what its hook answered, and that had the operator in the field. No payload, no
operator and no create does it.
-/
theorem operator_stored_iff (r : Run) (n : Nat) (className objectId field : String) (v : Value) :
    (∃ k ≤ n, (r.moment k).StoresOperator className objectId field v) ↔
      ∃ k < n, (r.moment k).Adopts className objectId field v := by
  constructor
  · rintro ⟨k, hk, hstores⟩
    obtain ⟨j, hj, hadopts⟩ := adopts_of_holds (.stored hstores)
    exact ⟨j, Nat.lt_of_lt_of_le hj hk, hadopts⟩
  · rintro ⟨k, hk, hadopts⟩
    exact ⟨k + 1, hk, hadopts.storesOperator⟩

def overriding : Run where
  settings := { objectIdLength := 1 }
  usable := Settings.valid_shortest
  clock := {}
  ids := {}
  client :=
    let adding := .obj [("__op", .str "Increment"), ("amount", .num (.ofNat 1))]
    .send (.create "Item" .null) fun _ =>
      .register "Item" .beforeSave (fun _ => .answer (.replacement [("x", adding)])) <|
      .send (.update "Item" "1" .null) fun _ => .answer .nothing

theorem overriding_stores_operator :
    ∃ v, (overriding.moment 5).StoresOperator "Item" "1" "x" v := ⟨_, _, rfl, rfl, rfl⟩

end Run

end DocumentStore
