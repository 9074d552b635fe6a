import DocumentStore.Proofs.Equality
import DocumentStore.Proofs.Operators

/-!
What operators make of the list in a field. One that adds without repeating appends the objects for
which nothing in the list stands. One that removes drops the elements that an object covers under
the equality rule; the object is on the stored side there, not the element, which shows as soon as
lists hold lists.
-/

namespace DocumentStore

/-- What is appended to the entries of a list when objects are united with them. -/
structure Unites (entries objects added : List Value) : Prop where
  inOrder : added.Sublist objects
  stands : ∀ object ∈ objects, ∃ entry ∈ entries ++ added, entry.sameEntry object = true
  fresh : ∀ entry ∈ entries, ∀ object ∈ added, entry.sameEntry object = false
  distinct : added.Pairwise fun earlier later => earlier.sameEntry later = false

namespace Unites

variable {entries objects added : List Value} {object : Value}

theorem nil (entries : List Value) : Unites entries [] [] := ⟨.slnil, nofun, nofun, .nil⟩

theorem skip (h : Unites entries objects added) (hany : entries.any (·.sameEntry object) = true) :
    Unites entries (object :: objects) added := by
  refine ⟨h.inOrder.cons object, ?_, h.fresh, h.distinct⟩
  obtain ⟨entry, he, hsame⟩ := List.any_eq_true.mp hany
  intro other ho
  rcases List.mem_cons.mp ho with rfl | ho
  · exact ⟨entry, List.mem_append_left added he, hsame⟩
  · exact h.stands other ho

theorem append (h : Unites (entries ++ [object]) objects added)
    (hany : entries.any (·.sameEntry object) = false) :
    Unites entries (object :: objects) (object :: added) where
  inOrder := h.inOrder.cons_cons object
  stands other ho := by
    rcases List.mem_cons.mp ho with rfl | ho
    · have hrefl : other.sameEntry other = true := by
        rw [Value.sameEntry, other.equal_refl, Bool.true_or]
      exact ⟨other, by simp, hrefl⟩
    · have hstands := h.stands other ho
      rwa [List.append_assoc, List.singleton_append] at hstands
  fresh entry he other ho := by
    rcases List.mem_cons.mp ho with rfl | ho
    · exact Bool.eq_false_iff.mpr (List.any_eq_false.mp hany entry he)
    · exact h.fresh entry (List.mem_append_left _ he) other ho
  distinct := by
    refine List.pairwise_cons.mpr ⟨fun other ho => ?_, h.distinct⟩
    exact h.fresh object (List.mem_append_right _ List.mem_cons_self) other ho

end Unites

namespace UpdateOp

variable {record : Record} {field : String} {items objects : List Value}

theorem unite_cons (entries : List Value) (object : Value) (objects : List Value) :
    unite entries (object :: objects) =
      unite (if entries.any (·.sameEntry object) then entries else entries ++ [object]) objects :=
      rfl

theorem exists_unite (entries objects : List Value) :
    ∃ added, unite entries objects = entries ++ added ∧ Unites entries objects added := by
  induction objects generalizing entries with
  | nil => exact ⟨[], (List.append_nil entries).symm, .nil entries⟩
  | cons object objects ih =>
    rw [unite_cons]
    cases hany : entries.any (·.sameEntry object) with
    | true =>
      obtain ⟨added, heq, h⟩ := ih entries
      exact ⟨added, heq, h.skip hany⟩
    | false =>
      obtain ⟨added, heq, h⟩ := ih (entries ++ [object])
      exact ⟨object :: added, by simpa using heq, h.append hany⟩

theorem unite_of_stands {entries : List Value}
    (h : ∀ object ∈ objects, ∃ entry ∈ entries, entry.sameEntry object = true) :
    unite entries objects = entries := by
  induction objects with
  | nil => rfl
  | cons object objects ih =>
    have hany : entries.any (·.sameEntry object) = true :=
      List.any_eq_true.mpr (h object List.mem_cons_self)
    rw [unite_cons, if_pos hany]
    exact ih fun other ho => h other (List.mem_cons_of_mem object ho)

theorem listOf_eq {current : Option Value} (field : String)
    (h : current = some (.arr items) ∨ isTruthy current = false ∧ items = []) :
    listOf field current = .ok items := by
  rcases h with rfl | ⟨hfalsy, rfl⟩
  · rfl
  · exact if_neg (Bool.eq_false_iff.mp hfalsy)

/--
Adding objects without repeating them appends to the list, or to an empty one in place of a value
that is not truthy, some of the objects in their order: in the end something stands for each, and
nothing appended is stood for by an entry before it. Doing it again changes nothing.
-/
theorem addUnique_appends (hcurrent : KeyMap.get? record field = some (.arr items) ∨
      isTruthy (KeyMap.get? record field) = false ∧ items = []) :
    ∃ added, (addUnique objects).Leaves record field (some (.arr (items ++ added))) ∧
      Unites items objects added ∧
      ∀ after, applyAll record [(field, addUnique objects)] = .ok after →
        applyAll after [(field, addUnique objects)] = .ok after := by
  obtain ⟨added, heq, hunites⟩ := exists_unite items objects
  have hresult : (addUnique objects).result field (KeyMap.get? record field) =
      .ok (some (.arr (items ++ added))) := by
    rw [result, listOf_eq field hcurrent, ← heq]
    rfl
  refine ⟨added, leaves_of_result hresult, hunites, fun after hafter => ?_⟩
  rw [applyAll, hresult] at hafter
  obtain rfl : KeyMap.insert record field (.arr (items ++ added)) = after := Except.ok.inj hafter
  rw [applyAll, KeyMap.get?_insert_self, result, listOf_eq field (.inl rfl), Except.map,
    unite_of_stands hunites.stands]
  exact congrArg Except.ok (KeyMap.insert_insert_self record field _ _)

def tags : List Value :=
  [.str "a", .str "a",
    .obj [("className", .str "Tag"), ("name", .str "red"), ("objectId", .str "1")]]

def newTags : List Value := [.str "b", Pointer.toValue ⟨"Tag", "1"⟩, .str "b"]

theorem addUnique_appends_tags :
    KeyMap.get? [("tags", Value.arr tags)] "tags" = some (.arr tags) ∧
      ∃ added,
        (addUnique newTags).Leaves [("tags", .arr tags)] "tags" (some (.arr (tags ++ added))) ∧
        Unites tags newTags added ∧
        ∀ after, applyAll [("tags", .arr tags)] [("tags", addUnique newTags)] = .ok after →
          applyAll after [("tags", addUnique newTags)] = .ok after :=
  ⟨rfl, addUnique_appends (.inl rfl)⟩

example :
    (addUnique newTags).Leaves [("tags", .arr tags)] "tags" (some (.arr (tags ++ [.str "b"]))) :=
  leaves_of_result rfl

end UpdateOp

namespace Value

mutual

def nodes : Value → List Value
  | .arr items => .arr items :: nodesAmong items
  | v => [v]

def nodesAmong : List Value → List Value
  | [] => []
  | v :: vs => nodes v ++ nodesAmong vs

end

/-- The equality rule with the stored value on the left: one of its nodes agrees with the parameter,
and `null` goes with `null`. -/
def Covers (stored param : Value) : Prop :=
  (stored = .null ↔ param = .null) ∧ ∃ node ∈ stored.nodes, node.agrees param = true

mutual

theorem holds_iff (param : Value) :
    ∀ v : Value, holds param v = true ↔ ∃ node ∈ v.nodes, node.agrees param = true
  | .null | .bool _ | .num _ | .str _ | .obj _ => by
    simp only [holds, nodes, List.mem_singleton, exists_eq_left]
  | .arr items => by
    simp only [holds, nodes, Bool.or_eq_true, List.mem_cons, or_and_right, exists_or,
      exists_eq_left, holdsAmong_iff param items]

theorem holdsAmong_iff (param : Value) : ∀ items : List Value,
    holdsAmong param items = true ↔ ∃ node ∈ nodesAmong items, node.agrees param = true
  | [] => by simp [holdsAmong, nodesAmong]
  | v :: vs => by
    simp only [holdsAmong, nodesAmong, Bool.or_eq_true, List.mem_append, or_and_right, exists_or,
      holds_iff param v, holdsAmong_iff param vs]

end

variable {v w : Value}

theorem present?_of_ne (h : v ≠ .null) : present? (some v) = some v := by
  cases v with
  | null => exact absurd rfl h
  | _ => rfl

theorem fieldEquals_iff_covers (v w : Value) :
    fieldEquals (some v) (some w) = true ↔ v.Covers w := by
  by_cases hv : v = .null
  · subst hv
    by_cases hw : w = .null
    · subst hw
      exact ⟨fun _ => ⟨Iff.rfl, .null, List.mem_singleton.mpr rfl, rfl⟩, fun _ => rfl⟩
    · rw [fieldEquals, present?_of_ne hw]
      exact ⟨nofun, fun h => absurd (h.1.mp rfl) hw⟩
  · by_cases hw : w = .null
    · subst hw
      rw [fieldEquals, present?_of_ne hv]
      exact ⟨nofun, fun h => absurd (h.1.mpr rfl) hv⟩
    · rw [fieldEquals, present?_of_ne hv, present?_of_ne hw]
      simp only [Covers, hv, hw, true_and]
      exact holds_iff w v

instance (v w : Value) : Decidable (v.Covers w) := decidable_of_iff _ (fieldEquals_iff_covers v w)

theorem agrees_comm (v w : Value) : v.agrees w = w.agrees v := by
  have hequal : v.equal w = w.equal v := Bool.eq_iff_iff.mpr ⟨equal_symm, equal_symm⟩
  have hobject : v.sameObjectId w = w.sameObjectId v := by
    rw [sameObjectId, sameObjectId]
    cases v.objectId? <;> cases w.objectId? <;> simp [Bool.beq_comm]
  have hinstant : v.sameInstant w = w.sameInstant v := by
    rw [sameInstant, sameInstant, Bool.or_comm]
    cases v.instant? <;> cases w.instant? <;> simp [Bool.beq_comm]
  rw [agrees, agrees, hequal, hobject, hinstant]

theorem nodes_of_not_list (h : ∀ items, v ≠ .arr items) : v.nodes = [v] := by
  cases v with
  | arr items => exact absurd rfl (h items)
  | _ => rfl

theorem covers_comm (hv : ∀ items, v ≠ .arr items) (hw : ∀ items, w ≠ .arr items) :
    v.Covers w ↔ w.Covers v := by
  simp only [Covers, nodes_of_not_list hv, nodes_of_not_list hw, List.mem_singleton, exists_eq_left,
    agrees_comm v w, iff_comm (a := v = .null)]

theorem not_covers_list (hv : ∀ items, v ≠ .arr items) (items : List Value) :
    ¬ v.Covers (.arr items) := by
  have hequal : v.equal (.arr items) = false := by
    cases v with
    | arr items' => exact absurd rfl (hv items')
    | _ => rfl
  have hid : (Value.arr items).objectId? = none := rfl
  have hinstant : (Value.arr items).instant? = none := rfl
  rintro ⟨-, node, hnode, hagrees⟩
  rw [nodes_of_not_list hv, List.mem_singleton] at hnode
  subst hnode
  simp [agrees, hequal, sameObjectId, hid, sameInstant, hinstant] at hagrees

end Value

namespace UpdateOp

variable {record : Record} {field : String} {items objects : List Value}

theorem withoutObjects_eq (items objects : List Value) :
    withoutObjects items objects = items.filter (fun e => ¬ ∃ o ∈ objects, o.Covers e) := by
  apply List.filter_congr
  intro e _
  rw [Bool.eq_iff_iff, Bool.not_eq_true', Bool.eq_false_iff, ne_eq, List.any_eq_true,
    decide_eq_true_eq]
  simp only [Value.fieldEquals_iff_covers]

theorem equals_none_iff (e : Value) (objects : List Value) :
    (∀ o ∈ objects, fieldEquals (some e) (some o) = false) ↔ ¬ ∃ o ∈ objects, e.Covers o := by
  simp only [← Value.fieldEquals_iff_covers, not_exists, not_and, Bool.not_eq_true]

theorem filter_eq_filter_iff {p q : Value → Prop} [DecidablePred p] [DecidablePred q] :
    items.filter (fun e => p e) = items.filter (fun e => q e) ↔ ∀ e ∈ items, p e ↔ q e := by
  constructor
  · intro h e he
    have hmem : e ∈ items.filter (fun e => p e) ↔ e ∈ items.filter (fun e => q e) := by rw [h]
    simpa [he] using hmem
  · intro h
    exact List.filter_congr fun e he => decide_eq_decide.mpr (h e he)

/--
Removing objects leaves, in order, the elements that no object covers. The equality rule would have
the elements cover the objects; that comes to the same when an element is covered by some object as
soon as it covers one, and the other way round. It always does where lists hold no lists, for there
the rule is symmetric. But objects that are no lists remove no list, whatever it holds.
-/
theorem remove_leaves_uncovered {op : UpdateOp}
    (hop : op = .remove objects ∨ op = .removeRelation objects)
    (hlist : KeyMap.get? record field = some (.arr items)) :
    ∃ kept, kept = items.filter (fun e => ¬ ∃ o ∈ objects, o.Covers e) ∧
      op.Leaves record field (some (.arr kept)) ∧
      (kept = items.filter (fun e => ∀ o ∈ objects, fieldEquals (some e) (some o) = false) ↔
        ∀ e ∈ items, (∃ o ∈ objects, o.Covers e) ↔ ∃ o ∈ objects, e.Covers o) ∧
      ((∀ v ∈ items ++ objects, ∀ elements, v ≠ .arr elements) →
        kept = items.filter fun e => ∀ o ∈ objects, fieldEquals (some e) (some o) = false) ∧
      ((∀ o ∈ objects, ∀ elements, o ≠ .arr elements) → ∀ elements, .arr elements ∈ items →
        .arr elements ∈ kept) := by
  have hresult : op.result field (KeyMap.get? record field) =
      .ok (some (.arr (withoutObjects items objects))) := by
    rcases hop with rfl | rfl <;> rw [hlist] <;> rfl
  rw [withoutObjects_eq] at hresult
  refine ⟨_, rfl, leaves_of_result hresult, ?rule,
    fun hscalar => filter_eq_filter_iff.mpr fun e he => ?scalar, fun hscalar elements he => ?lists⟩
  case rule =>
    rw [filter_eq_filter_iff]
    refine forall₂_congr fun e _ => ?_
    rw [equals_none_iff, Decidable.not_iff_not]
  case scalar =>
    have hcomm (o : Value) (ho : o ∈ objects) : o.Covers e ↔ e.Covers o :=
      Value.covers_comm (hscalar o (List.mem_append_right items ho))
        (hscalar e (List.mem_append_left objects he))
    rw [equals_none_iff]
    exact not_congr (exists_congr fun o => and_congr_right (hcomm o))
  case lists =>
    have huncovered : ¬ ∃ o ∈ objects, o.Covers (.arr elements) := by
      rintro ⟨o, ho, hcovers⟩
      exact Value.not_covers_list (hscalar o ho) elements hcovers
    exact List.mem_filter.mpr ⟨he, decide_eq_true huncovered⟩

def nested : Record := [("tags", .arr [.arr [.str "a", .str "b"], .str "c"])]

theorem remove_leaves_uncovered_nested :
    ((remove [.arr [.str "c"]] = remove [.arr [.str "c"]] ∨
      remove [.arr [.str "c"]] = removeRelation [.arr [.str "c"]]) ∧
      KeyMap.get? nested "tags" = some (.arr [.arr [.str "a", .str "b"], .str "c"])) ∧
      (remove [.arr [.str "c"]]).Leaves nested "tags"
        (some (.arr [.arr [.str "a", .str "b"]])) := by
  have hop : remove [.arr [.str "c"]] = remove [.arr [.str "c"]] ∨
      remove [.arr [.str "c"]] = removeRelation [.arr [.str "c"]] :=
    .inl rfl
  have hlist : KeyMap.get? nested "tags" = some (.arr [.arr [.str "a", .str "b"], .str "c"]) := rfl
  obtain ⟨kept, hkept, hleaves, -⟩ := remove_leaves_uncovered hop hlist
  obtain rfl : kept = [.arr [.str "a", .str "b"]] := hkept.trans rfl
  exact ⟨⟨hop, hlist⟩, hleaves⟩

/-- A list that holds a text is equal to the text under the rule, but removing the text leaves
it. -/
theorem remove_keeps_list_of_text :
    (remove [.str "a"]).Leaves nested "tags" (some (.arr [.arr [.str "a", .str "b"], .str "c"])) ∧
      [Value.arr [.str "a", .str "b"], .str "c"].filter
        (fun e => ∀ o ∈ [Value.str "a"], fieldEquals (some e) (some o) = false) = [.str "c"] :=
  ⟨leaves_of_result rfl, rfl⟩

end UpdateOp

end DocumentStore
