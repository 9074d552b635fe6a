import DocumentStore.Proofs.Equality
import DocumentStore.Proofs.Operators

/-!
Members of a relation. Operators keep a relation field as a list of pointers, in which a pointer may
stand more than once; what counts is the history of the field: a pointer is in the list when it was
added after it was last removed.
-/

namespace DocumentStore

inductive MemberChange where
  | added (pointer : Pointer)
  | removed (pointer : Pointer)

namespace MemberChange

def pointer : MemberChange → Pointer
  | .added p => p
  | .removed p => p

/-- The pointer is added somewhere in a history, and not removed after that. -/
def AddedLast (p : Pointer) (changes : List MemberChange) : Prop :=
  ∃ earlier later, changes = earlier ++ .added p :: later ∧ .removed p ∉ later

/-- No two pointers of a history have one id in different classes. -/
def ApartByIds (changes : List MemberChange) : Prop :=
  ∀ a ∈ changes, ∀ b ∈ changes, a.pointer.objectId = b.pointer.objectId → a.pointer = b.pointer

variable {p q : Pointer} {changes : List MemberChange}

theorem not_addedLast_nil (p : Pointer) : ¬ AddedLast p [] := by
  rintro ⟨earlier, later, h, -⟩
  cases earlier <;> cases h

theorem AddedLast.mem (h : AddedLast p changes) : .added p ∈ changes := by
  obtain ⟨earlier, later, rfl, -⟩ := h
  exact List.mem_append_right _ List.mem_cons_self

theorem addedLast_concat (change : MemberChange) :
    AddedLast p (changes ++ [change]) ↔
      change = .added p ∨ AddedLast p changes ∧ change ≠ .removed p := by
  constructor
  · rintro ⟨earlier, later, h, hlater⟩
    rcases List.eq_nil_or_concat later with rfl | ⟨later, last, rfl⟩
    · obtain ⟨-, hlast⟩ := List.append_inj' h rfl
      exact .inl (List.cons.inj hlast).1
    · rw [List.concat_eq_append] at h hlater
      rw [← List.cons_append, ← List.append_assoc] at h
      obtain ⟨hchanges, hlast⟩ := List.append_inj' h rfl
      obtain rfl : change = last := (List.cons.inj hlast).1
      rw [List.mem_append, List.mem_singleton, not_or] at hlater
      exact .inr ⟨⟨earlier, later, hchanges, hlater.1⟩, fun he => hlater.2 he.symm⟩
  · rintro (rfl | ⟨⟨earlier, later, rfl, hlater⟩, hne⟩)
    · exact ⟨changes, [], rfl, List.not_mem_nil⟩
    · refine ⟨earlier, later ++ [change], by simp, ?_⟩
      rw [List.mem_append, List.mem_singleton, not_or]
      exact ⟨hlater, fun he => hne he.symm⟩

theorem addedLast_append_added (pointers : List Pointer) :
    AddedLast p (changes ++ pointers.map .added) ↔ AddedLast p changes ∨ p ∈ pointers := by
  induction pointers generalizing changes with
  | nil => simp
  | cons q pointers ih =>
    have hcons : changes ++ (q :: pointers).map .added =
        (changes ++ [.added q]) ++ pointers.map .added := by simp
    rw [hcons, ih, addedLast_concat, List.mem_cons]
    simp only [added.injEq, reduceCtorEq, ne_eq, not_false_eq_true, and_true]
    constructor
    · rintro ((rfl | h) | h)
      · exact .inr (.inl rfl)
      · exact .inl h
      · exact .inr (.inr h)
    · rintro (h | rfl | h)
      · exact .inl (.inr h)
      · exact .inl (.inl rfl)
      · exact .inr h

theorem addedLast_append_removed (pointers : List Pointer) :
    AddedLast p (changes ++ pointers.map .removed) ↔ AddedLast p changes ∧ p ∉ pointers := by
  induction pointers generalizing changes with
  | nil => simp
  | cons q pointers ih =>
    have hcons : changes ++ (q :: pointers).map .removed =
        (changes ++ [.removed q]) ++ pointers.map .removed := by simp
    rw [hcons, ih, addedLast_concat, List.mem_cons, not_or]
    simp only [reduceCtorEq, removed.injEq, ne_eq, false_or]
    constructor
    · intro ⟨⟨h, hq⟩, hp⟩
      exact ⟨h, fun he => hq he.symm, hp⟩
    · intro ⟨h, hq, hp⟩
      exact ⟨⟨h, fun he => hq he.symm⟩, hp⟩

end MemberChange

open MemberChange

structure Value.TaggedPointer (v : Value) : Prop where
  tagged : v.isPointer = true
  named : (Pointer.ofValue? v).isSome = true

def pointersIn (items : List Value) : List Pointer := items.filterMap Pointer.ofValue?

namespace UpdateOp

mutual

/-- Adds tagged pointers to a relation or removes them from it, perhaps several times in turn. -/
def Relational : UpdateOp → Prop
  | .addRelation objects => ∀ v ∈ objects, v.TaggedPointer
  | .removeRelation objects => ∀ v ∈ objects, v.TaggedPointer
  | .batch ops => AllRelational ops
  | _ => False

def AllRelational : List UpdateOp → Prop
  | [] => True
  | op :: ops => Relational op ∧ AllRelational ops

end

mutual

def memberChanges : UpdateOp → List MemberChange
  | .addRelation objects => (pointersIn objects).map .added
  | .removeRelation objects => (pointersIn objects).map .removed
  | .batch ops => memberChangesOfAll ops
  | _ => []

def memberChangesOfAll : List UpdateOp → List MemberChange
  | [] => []
  | op :: ops => memberChanges op ++ memberChangesOfAll ops

end

end UpdateOp

theorem Pointer.objectId?_of_ofValue? {v : Value} {p : Pointer} (h : ofValue? v = some p) :
    v.objectId? = some p.objectId := by
  simp only [ofValue?, Option.bind_eq_bind, Option.bind_eq_some_iff] at h
  obtain ⟨className, -, objectId, ho, hp⟩ := h
  obtain rfl : ⟨className, objectId⟩ = p := Option.some.inj hp
  exact ho

namespace Value.TaggedPointer

variable {v w : Value}

theorem isObject (h : v.TaggedPointer) : ∃ fields, v = .obj fields := by
  cases v with
  | obj fields => exact ⟨fields, rfl⟩
  | _ => cases h.tagged

theorem exists_ofValue? (h : v.TaggedPointer) :
    ∃ p, Pointer.ofValue? v = some p ∧ v.objectId? = some p.objectId := by
  obtain ⟨p, hp⟩ := Option.isSome_iff_exists.mp h.named
  exact ⟨p, hp, Pointer.objectId?_of_ofValue? hp⟩

theorem isDate_eq_false (h : v.TaggedPointer) : v.isDate = false := by
  have htag : v.typeTag? = some "Pointer" := by simpa [Value.isPointer] using h.tagged
  rw [Value.isDate, htag]
  rfl

theorem fieldEquals_iff (hv : v.TaggedPointer) (hw : w.TaggedPointer) :
    fieldEquals (some v) (some w) = true ↔ v.objectId? = w.objectId? := by
  have hagrees : fieldEquals (some v) (some w) = v.agrees w := by
    obtain ⟨fields, rfl⟩ := hv.isObject
    obtain ⟨fields', rfl⟩ := hw.isObject
    simp only [fieldEquals, present?, Value.holds]
  obtain ⟨p, -, hp⟩ := hv.exists_ofValue?
  have hinstant : v.sameInstant w = false := by
    rw [Value.sameInstant, hv.isDate_eq_false, hw.isDate_eq_false]
    rfl
  have hsame : v.sameObjectId w = true ↔ v.objectId? = w.objectId? := by
    rw [Value.sameObjectId, hp, Option.any_some, beq_iff_eq]
    exact eq_comm
  rw [hagrees, Value.agrees, hinstant, Bool.or_false, Bool.or_eq_true, hsame]
  constructor
  · rintro (h | h)
    · exact Value.textField?_eq h "objectId"
    · exact h
  · exact .inr

end Value.TaggedPointer

theorem mem_pointersIn {items : List Value} {p : Pointer} :
    p ∈ pointersIn items ↔ ∃ v ∈ items, Pointer.ofValue? v = some p := List.mem_filterMap

theorem mem_pointersIn_withoutObjects {items objects : List Value}
    (hitems : ∀ v ∈ items, v.TaggedPointer) (hobjects : ∀ v ∈ objects, v.TaggedPointer)
    (hapart : ∀ p ∈ pointersIn items, ∀ q ∈ pointersIn objects, p.objectId = q.objectId → p = q)
    (p : Pointer) :
    p ∈ pointersIn (UpdateOp.withoutObjects items objects) ↔
      p ∈ pointersIn items ∧ p ∉ pointersIn objects := by
  have hkept (v : Value) : v ∈ UpdateOp.withoutObjects items objects ↔
      v ∈ items ∧ ∀ object ∈ objects, fieldEquals (some object) (some v) ≠ true := by
    simp [UpdateOp.withoutObjects]
  simp only [mem_pointersIn, hkept]
  constructor
  · rintro ⟨v, ⟨hv, hdiffers⟩, hp⟩
    refine ⟨⟨v, hv, hp⟩, ?_⟩
    rintro ⟨object, ho, hop⟩
    refine hdiffers object ho (((hobjects object ho).fieldEquals_iff (hitems v hv)).mpr ?_)
    rw [Pointer.objectId?_of_ofValue? hop, Pointer.objectId?_of_ofValue? hp]
  · rintro ⟨⟨v, hv, hp⟩, hnot⟩
    refine ⟨v, ⟨hv, fun object ho heq => ?_⟩, hp⟩
    obtain ⟨q, hq, hqid⟩ := (hobjects object ho).exists_ofValue?
    have hsame := ((hobjects object ho).fieldEquals_iff (hitems v hv)).mp heq
    rw [hqid, Pointer.objectId?_of_ofValue? hp] at hsame
    have hpq : p = q :=
      hapart p (mem_pointersIn.mpr ⟨v, hv, hp⟩) q (mem_pointersIn.mpr ⟨object, ho, hq⟩)
      (Option.some.inj hsame).symm
    exact hnot ⟨object, ho, hpq ▸ hq⟩

def elements (value : Option Value) : List Value := (value.map Value.asItems).getD []

/-- What a relation field holds after a history: nothing, or a list of tagged pointers, and in it
those that were added last. -/
structure ListsMembers (value : Option Value) (changes : List MemberChange) : Prop where
  list : value = none ∨ ∃ items, value = some (.arr items)
  tagged : ∀ v ∈ elements value, v.TaggedPointer
  mem_iff : ∀ p, p ∈ pointersIn (elements value) ↔ AddedLast p changes

namespace ListsMembers

variable {value value' : Option Value} {changes : List MemberChange} {field : String}
  {objects : List Value}

theorem absent : ListsMembers none [] where
  list := .inl rfl
  tagged := nofun
  mem_iff p := ⟨nofun, fun h => absurd h (not_addedLast_nil p)⟩

theorem addRelation (h : ListsMembers value changes) (hobjects : ∀ v ∈ objects, v.TaggedPointer)
    (hr : (UpdateOp.addRelation objects).result field value = .ok value') :
    ListsMembers value' (changes ++ (pointersIn objects).map .added) := by
  have hlist : UpdateOp.listOf field value = .ok (elements value) := by
    rcases h.list with rfl | ⟨items, rfl⟩ <;> rfl
  rw [UpdateOp.result, hlist] at hr
  obtain rfl : some (.arr (elements value ++ objects)) = value' := Except.ok.inj hr
  refine ⟨.inr ⟨_, rfl⟩, fun v hv => ?_, fun p => ?_⟩
  · rcases List.mem_append.mp hv with hv | hv
    · exact h.tagged v hv
    · exact hobjects v hv
  · show p ∈ pointersIn (elements value ++ objects) ↔ _
    rw [pointersIn, List.filterMap_append, List.mem_append, addedLast_append_added]
    exact or_congr_left (h.mem_iff p)

theorem removeRelation (h : ListsMembers value changes) (hobjects : ∀ v ∈ objects, v.TaggedPointer)
    (hapart : ApartByIds (changes ++ (pointersIn objects).map .removed))
    (hr : (UpdateOp.removeRelation objects).result field value = .ok value') :
    ListsMembers value' (changes ++ (pointersIn objects).map .removed) := by
  have hids : ∀ p ∈ pointersIn (elements value), ∀ q ∈ pointersIn objects,
      p.objectId = q.objectId → p = q := by
    intro p hp q hq
    have hadded : .added p ∈ changes := ((h.mem_iff p).mp hp).mem
    exact hapart _ (List.mem_append_left _ hadded) _
      (List.mem_append_right _ (List.mem_map_of_mem hq))
  have hmem (p : Pointer) := mem_pointersIn_withoutObjects h.tagged hobjects hids p
  rcases h.list with rfl | ⟨items, rfl⟩
  · obtain rfl : none = value' := Except.ok.inj hr
    refine ⟨.inl rfl, nofun, fun p => ?_⟩
    rw [addedLast_append_removed, ← h.mem_iff]
    exact hmem p
  · obtain rfl : some (.arr (UpdateOp.withoutObjects items objects)) = value' := Except.ok.inj hr
    refine ⟨.inr ⟨_, rfl⟩, fun v hv => h.tagged v (List.mem_filter.mp hv).1, fun p => ?_⟩
    rw [addedLast_append_removed, ← h.mem_iff]
    exact hmem p

end ListsMembers

theorem MemberChange.ApartByIds.left {changes changes' : List MemberChange}
    (h : ApartByIds (changes ++ changes')) :
    ApartByIds changes :=
  fun a ha b hb => h a (List.mem_append_left _ ha) b (List.mem_append_left _ hb)

mutual

/-- A relational operator extends the history by its own changes. The induction is on the operator,
for any value it meets. -/
theorem listsMembers_result (field : String) :
    ∀ (op : UpdateOp) {value value' : Option Value} {changes : List MemberChange},
    ListsMembers value changes → op.Relational → ApartByIds (changes ++ op.memberChanges) →
      op.result field value = .ok value' → ListsMembers value' (changes ++ op.memberChanges)
  | .addRelation _, _, _, _, h, hop, _, hr => h.addRelation hop hr
  | .removeRelation _, _, _, _, h, hop, hapart, hr => h.removeRelation hop hapart hr
  | .batch ops, _, _, _, h, hop, hapart, hr => listsMembers_resultOfAll field ops h hop hapart hr
  | .increment _, _, _, _, _, hop, _, _ | .add _, _, _, _, _, hop, _, _
  | .addUnique _, _, _, _, _, hop, _, _
  | .remove _, _, _, _, _, hop, _, _ | .delete, _, _, _, _, hop, _, _ => hop.elim

theorem listsMembers_resultOfAll (field : String) :
    ∀ (ops : List UpdateOp) {value value' : Option Value}
    {changes : List MemberChange}, ListsMembers value changes → UpdateOp.AllRelational ops →
      ApartByIds (changes ++ UpdateOp.memberChangesOfAll ops) →
      UpdateOp.resultOfAll field ops value = .ok value' →
        ListsMembers value' (changes ++ UpdateOp.memberChangesOfAll ops)
  | [], value, value', changes, h, _, _, hr => by
    obtain rfl : value = value' := Except.ok.inj hr
    rw [UpdateOp.memberChangesOfAll, List.append_nil]
    exact h
  | op :: ops, value, value', changes, h, hops, hapart, hr => by
    rw [UpdateOp.memberChangesOfAll, ← List.append_assoc] at hapart ⊢
    simp only [UpdateOp.resultOfAll, bind_eq_ok_iff] at hr
    obtain ⟨between, hfirst, hrest⟩ := hr
    exact listsMembers_resultOfAll field ops
      (listsMembers_result field op h hops.1 hapart.left hfirst) hops.2 hapart hrest

end

namespace UpdateOp

def memberChangesIn (field : String) (ops : List (String × UpdateOp)) : List MemberChange :=
  ops.flatMap fun e => if e.1 = field then e.2.memberChanges else []

theorem listsMembers_applyAll {field : String} {ops : List (String × UpdateOp)}
    {record result : Record} {history : List MemberChange}
    (h : ListsMembers (KeyMap.get? record field) history)
    (hops : ∀ op, (field, op) ∈ ops → op.Relational)
    (hapart : ApartByIds (history ++ memberChangesIn field ops))
    (hr : applyAll record ops = .ok result) :
    ListsMembers (KeyMap.get? result field) (history ++ memberChangesIn field ops) := by
  induction ops generalizing record history with
  | nil =>
    obtain rfl : record = result := Except.ok.inj hr
    rw [memberChangesIn, List.flatMap_nil, List.append_nil]
    exact h
  | cons e ops ih =>
    obtain ⟨key, op⟩ := e
    simp only [applyAll, bind_eq_ok_iff] at hr
    obtain ⟨value, hv, hr⟩ := hr
    have hrest : ∀ op, (field, op) ∈ ops → op.Relational :=
      fun op ho => hops op (List.mem_cons_of_mem _ ho)
    by_cases hkey : key = field
    · subst hkey
      have hcons :
          memberChangesIn key ((key, op) :: ops) = op.memberChanges ++ memberChangesIn key ops := by
        simp [memberChangesIn]
      rw [hcons, ← List.append_assoc] at hapart ⊢
      have hop := listsMembers_result key op h (hops op List.mem_cons_self) hapart.left hv
      exact ih (by rw [get?_setField_self]; exact hop) hrest hapart hr
    · have hcons : memberChangesIn field ((key, op) :: ops) = memberChangesIn field ops := by
        simp [memberChangesIn, hkey]
      rw [hcons] at hapart ⊢
      exact ih (by rw [get?_setField_of_ne record value (Ne.symm hkey)]; exact h) hrest hapart hr

theorem parse_of_mem_literals {changes literals : Record} {ops : List (String × UpdateOp)}
    (h : extract changes = .ok (ops, literals)) {field : String} {v : Value}
    (hm : (field, v) ∈ literals) :
    (field, v) ∈ changes ∧ parse field v = .ok none := by
  induction changes generalizing ops literals with
  | nil =>
    obtain ⟨-, rfl⟩ := Prod.mk.inj (Except.ok.inj h)
    cases hm
  | cons e rest ih =>
    obtain ⟨key, w⟩ := e
    obtain ⟨parsed, ops', literals', hp, he, -, rfl⟩ := extract_cons h
    cases parsed with
    | some op =>
      obtain ⟨hmem, hparse⟩ := ih he hm
      exact ⟨List.mem_cons_of_mem _ hmem, hparse⟩
    | none =>
      rcases List.mem_cons.mp hm with heq | hm
      · obtain ⟨rfl, rfl⟩ := Prod.mk.inj heq
        exact ⟨List.mem_cons_self, hp⟩
      · obtain ⟨hmem, hparse⟩ := ih he hm
        exact ⟨List.mem_cons_of_mem _ hmem, hparse⟩

end UpdateOp

namespace Record

def memberChangesOf (field : String) (v : Value) : List MemberChange :=
  match UpdateOp.parse field v with
  | .ok (some op) => op.memberChanges
  | _ => []

def memberChangesAt (field : String) (payload : Record) : List MemberChange :=
  payload.flatMap fun e => if e.1 = field then memberChangesOf field e.2 else []

def OnlyRelates (field : String) (payload : Record) : Prop :=
  ∀ v, (field, v) ∈ payload → ∃ op, UpdateOp.parse field v = .ok (some op) ∧ op.Relational

theorem memberChangesIn_extract {changes literals : Record} {ops : List (String × UpdateOp)}
    (h : UpdateOp.extract changes = .ok (ops, literals)) (field : String) :
    UpdateOp.memberChangesIn field ops = memberChangesAt field changes := by
  induction changes generalizing ops literals with
  | nil =>
    obtain ⟨rfl, -⟩ := Prod.mk.inj (Except.ok.inj h)
    rfl
  | cons e rest ih =>
    obtain ⟨key, v⟩ := e
    obtain ⟨parsed, ops', literals', hp, he, rfl, -⟩ := UpdateOp.extract_cons h
    have hrest := ih he
    simp only [UpdateOp.memberChangesIn, memberChangesAt] at hrest ⊢
    rw [List.flatMap_append, List.flatMap_cons, hrest]
    congr 1
    by_cases hkey : key = field
    · subst hkey
      rw [if_pos rfl, memberChangesOf, hp]
      cases parsed <;> simp
    · cases parsed <;> simp [hkey]

end Record

namespace Draft

theorem listsMembers_ofChanges {stored changes : Record} {draft : Draft}
    (hd : ofChanges stored changes = .ok draft) {field : String} {history : List MemberChange}
    (h : ListsMembers (KeyMap.get? stored field) history) (honly : changes.OnlyRelates field)
    (hapart : ApartByIds (history ++ changes.memberChangesAt field)) :
    ListsMembers (KeyMap.get? draft.record field) (history ++ changes.memberChangesAt field) := by
  obtain ⟨ops, literals, he, ha, -⟩ := ofChanges_eq_ok hd
  have hops (op : UpdateOp) (hop : (field, op) ∈ ops) : op.Relational := by
    obtain ⟨v, hv, hp⟩ := (UpdateOp.mem_extract he field op).mp hop
    obtain ⟨op', hp', hrel⟩ := honly v hv
    obtain rfl : op = op' := Option.some.inj (Except.ok.inj (hp.symm.trans hp'))
    exact hrel
  have hliteral : KeyMap.get? literals field = none := by
    refine Option.eq_none_iff_forall_ne_some.mpr fun v hv => ?_
    obtain ⟨hmem, hnone⟩ := UpdateOp.parse_of_mem_literals he (KeyMap.mem_of_get? hv)
    obtain ⟨op, hop, -⟩ := honly v hmem
    cases hnone.symm.trans hop
  have hbase : KeyMap.get? (KeyMap.overlay stored (KeyMap.without literals identityFields)) field =
      KeyMap.get? stored field := by
    rw [KeyMap.get?_overlay, KeyMap.get?_without, hliteral, ite_self, Option.none_or]
  rw [← Record.memberChangesIn_extract he field] at hapart ⊢
  exact UpdateOp.listsMembers_applyAll (by rw [hbase]; exact h) hops hapart ha

end Draft

end DocumentStore
