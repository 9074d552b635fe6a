import DocumentStore.Proofs.Seeing

/-!
Updates, field by field. An operator sees and changes no field but its own, and a payload has one
operator for a field at most. So what an update does at a field is told by the field alone, and the
order of the operators counts only for which fault is reported.
-/

namespace DocumentStore

namespace UpdateOp

variable {record after : Record} {ops : List (String × UpdateOp)} {fault : Fault}

def AppliesAt (op : UpdateOp) (record : Record) (field : String) : Prop :=
  ∃ v, op.result field (KeyMap.get? record field) = .ok v

theorem appliesAt_setField {field other : String} (h : other ≠ field) (op : UpdateOp)
    (value : Option Value) :
    op.AppliesAt (setField record field value) other ↔ op.AppliesAt record other := by
  rw [AppliesAt, AppliesAt, get?_setField_of_ne record value h]

theorem ne_of_mem {key : String} (hkey : key ∉ ops.map (·.1)) {e : String × UpdateOp}
    (he : e ∈ ops) : e.1 ≠ key := by
  rintro rfl
  exact hkey (List.mem_map_of_mem he)

theorem result_of_applyAll (hd : (ops.map (·.1)).Nodup) (h : applyAll record ops = .ok after)
    {field : String} {op : UpdateOp} (hm : (field, op) ∈ ops) :
    op.result field (KeyMap.get? record field) = .ok (KeyMap.get? after field) := by
  induction ops generalizing record with
  | nil => cases hm
  | cons e ops ih =>
    obtain ⟨key, first⟩ := e
    obtain ⟨hkey, hd⟩ := List.nodup_cons.mp hd
    simp only [applyAll, bind_eq_ok_iff] at h
    obtain ⟨value, hv, h⟩ := h
    -- The first operator is the only one for its field, so the others neither see nor change what
    -- it has set.
    rcases List.mem_cons.mp hm with heq | hm
    · obtain ⟨rfl, rfl⟩ := Prod.mk.inj heq
      rw [get?_applyAll_of_notMem h hkey, get?_setField_self]
      exact hv
    · rw [← ih hd h hm, get?_setField_of_ne record value (ne_of_mem hkey hm)]

theorem exists_applyAll (hd : (ops.map (·.1)).Nodup) (h : ∀ e ∈ ops, e.2.AppliesAt record e.1) :
    ∃ after, applyAll record ops = .ok after := by
  induction ops generalizing record with
  | nil => exact ⟨record, rfl⟩
  | cons e ops ih =>
    obtain ⟨hkey, hd⟩ := List.nodup_cons.mp hd
    obtain ⟨value, hv⟩ := h e List.mem_cons_self
    have hrest : ∀ e' ∈ ops, e'.2.AppliesAt (setField record e.1 value) e'.1 := by
      intro e' he'
      exact (appliesAt_setField (ne_of_mem hkey he') e'.2 value).mpr
        (h e' (List.mem_cons_of_mem _ he'))
    obtain ⟨after, ha⟩ := ih hd hrest
    exact ⟨after, bind_eq_ok_iff.mpr ⟨value, hv, ha⟩⟩

theorem exists_applyAll_iff (hd : (ops.map (·.1)).Nodup) :
    (∃ after, applyAll record ops = .ok after) ↔ ∀ e ∈ ops, e.2.AppliesAt record e.1 := by
  constructor
  · rintro ⟨after, h⟩ e he
    exact ⟨_, result_of_applyAll hd h he⟩
  · exact exists_applyAll hd

theorem applyAll_append_of_error {before rest : List (String × UpdateOp)} {field : String}
    {op : UpdateOp} (hd : ((before ++ (field, op) :: rest).map (·.1)).Nodup)
    (hbefore : ∀ e ∈ before, e.2.AppliesAt record e.1)
    (hop : op.result field (KeyMap.get? record field) = .error fault) :
    applyAll record (before ++ (field, op) :: rest) = .error fault := by
  induction before generalizing record with
  | nil =>
    simp only [List.nil_append, applyAll, hop]
    rfl
  | cons e before ih =>
    rw [List.cons_append, List.map_cons] at hd
    obtain ⟨hkey, hd⟩ := List.nodup_cons.mp hd
    obtain ⟨value, hv⟩ := hbefore e List.mem_cons_self
    have hfield : field ≠ e.1 := ne_of_mem hkey (List.mem_append_right before List.mem_cons_self)
    have hbefore' : ∀ e' ∈ before, e'.2.AppliesAt (setField record e.1 value) e'.1 := by
      intro e' he'
      have hne : e'.1 ≠ e.1 := ne_of_mem hkey (List.mem_append_left _ he')
      exact (appliesAt_setField hne e'.2 value).mpr (hbefore e' (List.mem_cons_of_mem _ he'))
    simp only [List.cons_append, applyAll, hv]
    exact ih hd hbefore' (by rw [get?_setField_of_ne record value hfield]; exact hop)

theorem appliesAt_or_first_fault (record : Record) (ops : List (String × UpdateOp)) :
    (∀ e ∈ ops, e.2.AppliesAt record e.1) ∨ ∃ before field op rest fault,
      ops = before ++ (field, op) :: rest ∧
      (∀ e ∈ before, e.2.AppliesAt record e.1) ∧
      op.result field (KeyMap.get? record field) = .error fault := by
  induction ops with
  | nil => exact .inl nofun
  | cons e ops ih =>
    cases he : e.2.result e.1 (KeyMap.get? record e.1) with
    | error fault => exact .inr ⟨[], e.1, e.2, ops, fault, rfl, nofun, he⟩
    | ok value =>
      rcases ih with hall | ⟨before, field, op, rest, fault, rfl, hbefore, hop⟩
      · exact .inl (List.forall_mem_cons.mpr ⟨⟨value, he⟩, hall⟩)
      · exact .inr ⟨e :: before, field, op, rest, fault, rfl,
          List.forall_mem_cons.mpr ⟨⟨value, he⟩, hbefore⟩, hop⟩

def SameFields : Except Fault Record → Except Fault Record → Prop
  | .ok record, .ok record' => ∀ field, KeyMap.get? record field = KeyMap.get? record' field
  | .error _, .error _ => True
  | _, _ => False

theorem sameFields_of_perm (record : Record) {order : List (String × UpdateOp)}
    (hp : order.Perm ops) (hd : (ops.map (·.1)).Nodup) :
    SameFields (applyAll record order) (applyAll record ops) := by
  have hd' : (order.map (·.1)).Nodup := (hp.map (·.1)).nodup_iff.mpr hd
  have happlies :
      (∃ after, applyAll record order = .ok after) ↔ ∃ after, applyAll record ops = .ok after := by
    rw [exists_applyAll_iff hd', exists_applyAll_iff hd]
    exact forall_congr' fun e => imp_congr_left hp.mem_iff
  cases ho : applyAll record order with
  | error fault =>
    cases h : applyAll record ops with
    | error fault' => trivial
    | ok after =>
      obtain ⟨_, hok⟩ := happlies.mpr ⟨after, h⟩
      cases ho.symm.trans hok
  | ok after' =>
    obtain ⟨after, h⟩ := happlies.mp ⟨after', ho⟩
    rw [h]
    intro field
    by_cases hf : field ∈ ops.map (·.1)
    · obtain ⟨⟨key, op⟩, hm, rfl⟩ := List.mem_map.mp hf
      exact Except.ok.inj
        ((result_of_applyAll hd' ho (hp.mem_iff.mpr hm)).symm.trans (result_of_applyAll hd h hm))
    · rw [get?_applyAll_of_notMem h hf, get?_applyAll_of_notMem ho fun hm =>
        hf ((hp.map (·.1)).mem_iff.mp hm)]

theorem exists_extract {changes : Record} (h : ∀ e ∈ changes, ∃ op, parse e.1 e.2 = .ok op) :
    ∃ ops literals, extract changes = .ok (ops, literals) := by
  induction changes with
  | nil => exact ⟨[], [], rfl⟩
  | cons e rest ih =>
    obtain ⟨⟨op, hp⟩, hrest⟩ := List.forall_mem_cons.mp h
    obtain ⟨ops, literals, he⟩ := ih hrest
    simp only [extract, hp, he]
    cases op with
    | none => exact ⟨_, _, rfl⟩
    | some op => exact ⟨_, _, rfl⟩

theorem ops_sublist {changes literals : Record} (h : extract changes = .ok (ops, literals)) :
    (ops.map (·.1)).Sublist (KeyMap.keys changes) := by
  induction changes generalizing ops literals with
  | nil =>
    obtain ⟨rfl, -⟩ := Prod.mk.inj (Except.ok.inj h)
    exact .slnil
  | cons e rest ih =>
    obtain ⟨key, v⟩ := e
    obtain ⟨parsed, ops', literals', -, he, rfl, -⟩ := extract_cons h
    cases parsed with
    | none => exact (ih he).cons key
    | some op => exact (ih he).cons_cons key

theorem sorted_ops {changes : SortedRecord} {literals : Record}
    (h : extract changes = .ok (ops, literals)) :
    (ops.map (·.1)).Pairwise (· < ·) :=
  (List.pairwise_map.mpr changes.2).sublist (ops_sublist h)

theorem mem_before_of_lt {before rest : List (String × UpdateOp)} {e e' : String × UpdateOp}
    (hs : ((before ++ e :: rest).map (·.1)).Pairwise (· < ·)) (hm : e' ∈ before ++ e :: rest)
    (hlt : e'.1 < e.1) :
    e' ∈ before := by
  rw [List.map_append, List.map_cons, List.pairwise_append, List.pairwise_cons] at hs
  rw [List.mem_append, List.mem_cons] at hm
  rcases hm with hm | rfl | hm
  · exact hm
  · exact absurd hlt (String.lt_irrefl e'.1)
  · exact absurd hlt (String.lt_asymm (hs.2.1.1 e'.1 (List.mem_map_of_mem hm)))

theorem nodup_ops {changes : SortedRecord} {literals : Record}
    (h : extract changes = .ok (ops, literals)) :
    (ops.map (·.1)).Nodup :=
  (sorted_ops h).imp String.ne_of_lt

end UpdateOp

namespace Record

variable {stored changes literals after : Record} {ops : List (String × UpdateOp)}

def OperatesAt (changes : Record) (field : String) (op : UpdateOp) : Prop :=
  ∃ v, KeyMap.get? changes field = some v ∧ UpdateOp.parse field v = .ok (some op)

theorem operatesAt_iff {changes : SortedRecord}
    (he : UpdateOp.extract changes = .ok (ops, literals)) (field : String) (op : UpdateOp) :
    changes.1.OperatesAt field op ↔ (field, op) ∈ ops := by
  rw [UpdateOp.mem_extract he]
  constructor
  · rintro ⟨v, hv, hp⟩
    exact ⟨v, KeyMap.mem_of_get? hv, hp⟩
  · rintro ⟨v, hv, hp⟩
    exact ⟨v, changes.2.get?_of_mem hv, hp⟩

/-- The fault is that of an operator of the payload, and the operators at all lesser fields apply to
what is stored. -/
def FaultsFirst (stored changes : Record) (fault : Fault) : Prop :=
  ∃ field op, changes.OperatesAt field op ∧
    op.result field (KeyMap.get? stored field) = .error fault ∧
    ∀ other op', other < field → changes.OperatesAt other op' → op'.AppliesAt stored other

def written (stored literals : Record) : Record :=
  KeyMap.overlay stored (KeyMap.without literals identityFields)

theorem get?_written (stored literals : Record) (field : String) :
    KeyMap.get? (written stored literals) field =
      if field ∈ identityFields then KeyMap.get? stored field
      else (KeyMap.get? literals field).or (KeyMap.get? stored field) := by
  rw [written, KeyMap.get?_overlay, KeyMap.get?_without]
  split <;> rfl

theorem get?_literals_of_mem_ops {changes : SortedRecord}
    (he : UpdateOp.extract changes = .ok (ops, literals)) {field : String}
    (hf : field ∈ ops.map (·.1)) : KeyMap.get? literals field = none := by
  obtain ⟨⟨key, op⟩, hm, rfl⟩ := List.mem_map.mp hf
  obtain ⟨v, hv, hp⟩ := (UpdateOp.mem_extract he key op).mp hm
  refine Option.eq_none_iff_forall_ne_some.mpr fun w hw => ?_
  obtain ⟨hw, hnone⟩ := UpdateOp.parse_of_mem_literals he (KeyMap.mem_of_get? hw)
  obtain rfl : v = w :=
    Option.some.inj ((changes.2.get?_of_mem hv).symm.trans (changes.2.get?_of_mem hw))
  cases hp.symm.trans hnone

theorem get?_written_of_mem_ops {changes : SortedRecord}
    (he : UpdateOp.extract changes = .ok (ops, literals)) {field : String}
    (hf : field ∈ ops.map (·.1)) :
    KeyMap.get? (written stored literals) field = KeyMap.get? stored field := by
  rw [get?_written, get?_literals_of_mem_ops he hf, Option.none_or, ite_self]

/-- Beside the fields that the engine owns, each field is as the payload has it: written, operated
on, or left as it was. -/
structure Fieldwise (stored changes after : Record) : Prop where
  written : ∀ field v, field ∉ identityFields → KeyMap.get? changes field = some v →
    UpdateOp.parse field v = .ok none → KeyMap.get? after field = some v
  operated : ∀ field op, field ∉ identityFields → changes.OperatesAt field op →
    op.result field (KeyMap.get? stored field) = .ok (KeyMap.get? after field)
  unnamed : ∀ field, field ∉ identityFields → KeyMap.get? changes field = none →
    KeyMap.get? after field = KeyMap.get? stored field

theorem Fieldwise.congr {record : Record} (h : Fieldwise stored changes after)
    (hr : ∀ field, field ∉ identityFields → KeyMap.get? record field = KeyMap.get? after field) :
    Fieldwise stored changes record where
  written field v hf hv hp := (hr field hf).trans (h.written field v hf hv hp)
  operated field op hf ho := (hr field hf).symm ▸ h.operated field op hf ho
  unnamed field hf hv := (hr field hf).trans (h.unnamed field hf hv)

end Record

namespace Draft

open Record

variable {stored literals : Record} {changes : SortedRecord} {ops : List (String × UpdateOp)}
  {draft : Draft} {fault : Fault}

theorem ofChanges_eq (he : UpdateOp.extract changes = .ok (ops, literals)) :
    ofChanges stored changes =
      (UpdateOp.applyAll (written stored literals) ops).map fun record =>
        ⟨record, UpdateOp.relationFields ops⟩ := by
  simp only [ofChanges, he, written]
  rfl

theorem result_written (he : UpdateOp.extract changes = .ok (ops, literals)) {field : String}
    {op : UpdateOp} (h : changes.1.OperatesAt field op) :
    op.result field (KeyMap.get? (written stored literals) field) =
      op.result field (KeyMap.get? stored field) := by
  have hm : field ∈ ops.map (·.1) := List.mem_map_of_mem ((operatesAt_iff he field op).mp h)
  rw [get?_written_of_mem_ops he hm]

theorem exists_ofChanges_iff (stored : Record)
    (he : UpdateOp.extract changes = .ok (ops, literals)) :
    (∃ draft, ofChanges stored changes = .ok draft) ↔
      ∀ field op, changes.1.OperatesAt field op → op.AppliesAt stored field := by
  have hdraft : (∃ draft, ofChanges stored changes = .ok draft) ↔
      ∃ after, UpdateOp.applyAll (written stored literals) ops = .ok after := by
    rw [ofChanges_eq he]
    constructor
    · rintro ⟨draft, h⟩
      obtain ⟨after, ha, -⟩ := map_eq_ok_iff.mp h
      exact ⟨after, ha⟩
    · rintro ⟨after, ha⟩
      exact ⟨_, map_eq_ok_iff.mpr ⟨after, ha, rfl⟩⟩
  rw [hdraft, UpdateOp.exists_applyAll_iff (UpdateOp.nodup_ops he)]
  constructor
  · intro h field op ho
    obtain ⟨v, hv⟩ := h (field, op) ((operatesAt_iff he field op).mp ho)
    exact ⟨v, (result_written he ho).symm.trans hv⟩
  · rintro h ⟨field, op⟩ hm
    have ho := (operatesAt_iff he field op).mpr hm
    obtain ⟨v, hv⟩ := h field op ho
    exact ⟨v, (result_written he ho).trans hv⟩

theorem faultsFirst_of_ofChanges (he : UpdateOp.extract changes = .ok (ops, literals))
    (h : ofChanges stored changes = .error fault) : stored.FaultsFirst changes fault := by
  have hd := UpdateOp.nodup_ops he
  rw [ofChanges_eq he] at h
  rcases UpdateOp.appliesAt_or_first_fault (written stored literals) ops with
    hall | ⟨before, field, op, rest, first, hsplit, hbefore, hop⟩
  · obtain ⟨after, ha⟩ := UpdateOp.exists_applyAll hd hall
    rw [ha] at h
    cases h
  · have hfault : UpdateOp.applyAll (written stored literals) ops = .error first := by
      subst hsplit
      exact UpdateOp.applyAll_append_of_error hd hbefore hop
    obtain rfl : first = fault := by
      rw [hfault] at h
      exact Except.error.inj h
    have ho : changes.1.OperatesAt field op := (operatesAt_iff he field op).mpr (by simp [hsplit])
    refine ⟨field, op, ho, (result_written he ho).symm.trans hop, fun other op' hlt ho' => ?_⟩
    have hmem : (other, op') ∈ before :=
      UpdateOp.mem_before_of_lt (hsplit ▸ UpdateOp.sorted_ops he)
        (hsplit ▸ (operatesAt_iff he other op').mp ho') hlt
    obtain ⟨v, hv⟩ := hbefore (other, op') hmem
    exact ⟨v, (result_written he ho').symm.trans hv⟩

theorem fieldwise_ofChanges (h : ofChanges stored changes = .ok draft) :
    Fieldwise stored changes draft.record := by
  obtain ⟨ops, literals, he, ha, -⟩ := ofChanges_eq_ok h
  have ha : UpdateOp.applyAll (Record.written stored literals) ops = .ok draft.record := ha
  have hd := UpdateOp.nodup_ops he
  refine ⟨fun field v hf hv hp => ?_, fun field op hf ho => ?_, fun field hf hv => ?_⟩
  · have hnone : ∀ w, ¬ changes.1.HoldsOperator field w := by
      rintro w ⟨hw, hop⟩
      obtain rfl : v = w := Option.some.inj (hv.symm.trans hw)
      exact absurd ((UpdateOp.isSome_of_parse hp).trans hop) (by simp)
    have hops : field ∉ ops.map (·.1) := by
      intro hm
      obtain ⟨w, hw⟩ := UpdateOp.holdsOperator_of_mem_ops changes he hm
      exact hnone w hw
    rw [UpdateOp.get?_applyAll_of_notMem ha hops, get?_written, if_neg hf,
      UpdateOp.get?_literals he hnone, hv, Option.some_or]
  · rw [← result_written he ho]
    exact UpdateOp.result_of_applyAll hd ha ((operatesAt_iff he field op).mp ho)
  · exact get?_ofChanges h ((KeyMap.get?_eq_none_iff changes.1 field).mp hv)

end Draft

namespace Record

theorem FaultsFirst.unique {stored changes : Record} {fault fault' : Fault}
    (h : stored.FaultsFirst changes fault) (h' : stored.FaultsFirst changes fault') :
    fault = fault' := by
  obtain ⟨field, op, ho, hop, hbefore⟩ := h
  obtain ⟨field', op', ho', hop', hbefore'⟩ := h'
  rcases Std.lt_trichotomy field field' with hlt | rfl | hlt
  · obtain ⟨v, hv⟩ := hbefore' field op hlt ho
    cases hop.symm.trans hv
  · obtain ⟨v, hv, hp⟩ := ho
    obtain ⟨v', hv', hp'⟩ := ho'
    obtain rfl : v = v' := Option.some.inj (hv.symm.trans hv')
    obtain rfl : op = op' := Option.some.inj (Except.ok.inj (hp.symm.trans hp'))
    exact Except.error.inj (hop.symm.trans hop')
  · obtain ⟨v, hv⟩ := hbefore field' op' hlt ho'
    cases hop'.symm.trans hv

end Record

namespace Engine

variable {e : Engine} {className objectId : String} {payload : Value} {stored changes : Record}

theorem update_of_error {fault : Fault} (nested : Serve)
    (hf : e.contents.fetch className objectId = some stored)
    (hp : Record.ofPayload payload = .ok changes)
    (hd : Draft.ofChanges stored changes = .error fault) :
    serveWith nested (.update className objectId payload) e = some (.error fault, e) := by
  have hdraft : (Record.ofPayload payload).bind (Draft.ofChanges stored) = .error fault := by
    rw [hp]; exact hd
  simp only [Request.update, serveWith, update, hf, hdraft]

theorem update_of_unhooked {draft : Draft} (nested : Serve)
    (hf : e.contents.fetch className objectId = some stored)
    (hp : Record.ofPayload payload = .ok changes) (hd : Draft.ofChanges stored changes = .ok draft)
    (hh : e.hooks.get? className .beforeSave = none) :
    serveWith nested (.update className objectId payload) e =
      some (.ok (e.commitChanges className objectId draft).1,
        (e.commitChanges className objectId draft).2) := by
  have hdraft : (Record.ofPayload payload).bind (Draft.ofChanges stored) = .ok draft := by
    rw [hp]; exact hd
  simp only [Request.update, serveWith, update, hf, hdraft, callHook, hh]

/--
An update of a class without a hook succeeds just where each operator of its payload applies to what
is stored in the operator's field, and otherwise it reports the first of the fields, in their order,
where one does not. What it stores is told field by field: the literal of the payload, what its
operator makes of the stored value, or the stored value. So the operators of the payload may be
applied in any order.
-/
theorem update_fieldwise (nested : Serve) {changes : SortedRecord}
    (hf : e.contents.fetch className objectId = some stored)
    (hp : Record.ofPayload payload = .ok changes)
    (hparse : ∀ entry ∈ changes.1, ∃ op, UpdateOp.parse entry.1 entry.2 = .ok op)
    (hh : e.hooks.get? className .beforeSave = none) :
    ∃ outcome e' ops literals,
      serveWith nested (.update className objectId payload) e = some (outcome, e') ∧
      ((∃ response, outcome = .ok response) ↔
        ∀ field op, changes.1.OperatesAt field op → op.AppliesAt stored field) ∧
      (∀ fault, outcome = .error fault ↔ stored.FaultsFirst changes fault) ∧
      (∀ response, outcome = .ok response → response.status = 200 ∧
        ∃ after, e'.contents.fetch className objectId = some after ∧
          Record.Fieldwise stored changes after) ∧
      UpdateOp.extract changes = .ok (ops, literals) ∧
      ∀ order, order.Perm ops →
        UpdateOp.SameFields (UpdateOp.applyAll (stored.written literals) order)
          (UpdateOp.applyAll (stored.written literals) ops) := by
  obtain ⟨ops, literals, he⟩ := UpdateOp.exists_extract hparse
  have horder := fun (order : List (String × UpdateOp)) (hperm : order.Perm ops) =>
    UpdateOp.sameFields_of_perm (stored.written literals) hperm (UpdateOp.nodup_ops he)
  have happlies := Draft.exists_ofChanges_iff stored he
  cases hd : Draft.ofChanges stored changes with
  | error fault =>
    have hfirst := Draft.faultsFirst_of_ofChanges he hd
    refine ⟨.error fault, e, ops, literals, update_of_error nested hf hp hd, ?_, fun fault' => ?_,
      nofun, he, horder⟩
    · rw [← happlies, hd]
      exact ⟨nofun, nofun⟩
    · exact ⟨fun h => Except.error.inj h ▸ hfirst, fun h => congrArg Except.error (hfirst.unique h)⟩
  | ok draft =>
    obtain ⟨after, hstored, hc⟩ := commitChanges_of_stored draft hf
    have hserve := update_of_unhooked nested hf hp hd hh
    rw [hc] at hserve
    have hall := happlies.mp ⟨draft, hd⟩
    refine ⟨_, _, ops, literals, hserve, ⟨fun _ => hall, fun _ => ⟨_, rfl⟩⟩,
      fun fault => ⟨nofun, ?_⟩, ?_, he, horder⟩
    · rintro ⟨field, op, ho, hop, -⟩
      obtain ⟨v, hv⟩ := hall field op ho
      cases hop.symm.trans hv
    · intro response hr
      obtain rfl := Except.ok.inj hr
      exact ⟨rfl, after, (Contents.fetch_insert ..).trans (if_pos ⟨rfl, rfl⟩),
        (Draft.fieldwise_ofChanges hd).congr hstored.others⟩

def stocked : Engine where
  settings := { objectIdLength := 1 }
  contents :=
    ({} : Contents).insert "Item" "a" [("count", .num (.ofNat 1)),
    ("createdAt", .str "1970-01-01T00:00:00.000Z"), ("old", .bool true), ("objectId", .str "a"),
    ("tags", .arr [.str "x"]), ("updatedAt", .str "1970-01-01T00:00:00.000Z")]

def retagging : Value :=
  .obj [("__op", .str "Batch"), ("ops", .arr [
    .obj [("__op", .str "AddUnique"), ("objects", .arr [.str "x", .str "y"])],
    .obj [("__op", .str "Remove"), ("objects", .arr [.str "x"])]])]

def restocking : SortedRecord where
  val :=
    [("count", .obj [("__op", .str "Increment"), ("amount", .num (.ofNat 2))]),
    ("name", .str "pen"), ("old", .obj [("__op", .str "Delete")]), ("tags", retagging)]
  property := by
    simp only [KeyMap.Sorted]
    decide

theorem update_fieldwise_restocking :
    (∀ entry ∈ restocking.1, ∃ op, UpdateOp.parse entry.1 entry.2 = .ok op) ∧
      stocked.hooks.get? "Item" .beforeSave = none ∧
      ∃ response e' stored after, stocked.contents.fetch "Item" "a" = some stored ∧
        serveWith (serve 0) (.update "Item" "a" (.obj restocking)) stocked =
          some (.ok response, e') ∧
        e'.contents.fetch "Item" "a" = some after ∧ Record.Fieldwise stored restocking after ∧
        KeyMap.get? after "count" = some (.num (.ofNat 3)) ∧
        KeyMap.get? after "name" = some (.str "pen") ∧
        KeyMap.get? after "old" = none ∧ KeyMap.get? after "tags" = some (.arr [.str "y"]) := by
  have hparse : ∀ entry ∈ restocking.1, ∃ op, UpdateOp.parse entry.1 entry.2 = .ok op := by
    simp only [restocking, List.forall_mem_cons]
    exact ⟨⟨_, rfl⟩, ⟨_, rfl⟩, ⟨_, rfl⟩, ⟨_, rfl⟩, List.forall_mem_nil _⟩
  have hpayload : Record.ofPayload (.obj restocking) = .ok restocking.1 := rfl
  obtain ⟨stored, hstored⟩ : ∃ stored, stocked.contents.fetch "Item" "a" = some stored := ⟨_, rfl⟩
  have hserved : ∃ response e' after,
      serveWith (serve 0) (.update "Item" "a" (.obj restocking)) stocked = some (.ok response, e') ∧
      e'.contents.fetch "Item" "a" = some after ∧
        KeyMap.get? after "count" = some (.num (.ofNat 3)) ∧
      KeyMap.get? after "name" = some (.str "pen") ∧ KeyMap.get? after "old" = none ∧
      KeyMap.get? after "tags" = some (.arr [.str "y"]) := ⟨_, _, _, rfl, rfl, rfl, rfl, rfl, rfl⟩
  obtain ⟨response, e', after, hserve, hafter, hfields⟩ := hserved
  obtain ⟨outcome, e₁, -, -, hserve₁, -, -, hsuccess, -⟩ :=
    update_fieldwise (serve 0) hstored hpayload hparse rfl
  obtain ⟨rfl, rfl⟩ := Prod.mk.inj (Option.some.inj (hserve.symm.trans hserve₁))
  obtain ⟨-, after₁, hafter₁, hfieldwise⟩ := hsuccess response rfl
  obtain rfl := Option.some.inj (hafter.symm.trans hafter₁)
  exact ⟨hparse, rfl, response, e', stored, after, hstored, hserve, hafter, hfieldwise, hfields⟩

end Engine

end DocumentStore
