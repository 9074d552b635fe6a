import DocumentStore.Proofs.Listing
import DocumentStore.Proofs.Sorted

/-!
Values in which the names of every object stand in rising order, however deep it is. Update
operators make such values of such values, so a store that is given them only keeps no others.
-/

namespace DocumentStore

/-- All objects in a value have their names in rising order, as the names of a map stand. -/
inductive Value.Ordered : Value → Prop where
  | null : Ordered .null
  | bool (flag : Bool) : Ordered (.bool flag)
  | num (number : Number) : Ordered (.num number)
  | str (text : String) : Ordered (.str text)
  | arr {items : List Value} (each : ∀ v ∈ items, Ordered v) : Ordered (.arr items)
  | obj {fields : Record} (sorted : KeyMap.Sorted fields)
      (each : ∀ key v, KeyMap.get? fields key = some v → Ordered v) : Ordered (.obj fields)

theorem Value.Ordered.items {items : List Value} (h : (Value.arr items).Ordered) :
    ∀ v ∈ items, v.Ordered := by
  cases h with
  | arr each => exact each

def Record.Ordered (record : Record) : Prop := (Value.obj record).Ordered

abbrev OrderedRecord := {record : Record // record.Ordered}

namespace Record

variable {record current : Record} {key : String} {v : Value}

theorem ordered_iff : record.Ordered ↔ KeyMap.Sorted record ∧ ∀ e ∈ record, e.2.Ordered := by
  constructor
  · intro h
    cases h with
    | obj hsorted heach => exact ⟨hsorted, fun e he => heach e.1 e.2 (hsorted.get?_of_mem he)⟩
  · rintro ⟨hsorted, hvalues⟩
    exact .obj hsorted fun key v hv => hvalues (key, v) (KeyMap.mem_of_get? hv)

namespace Ordered

theorem sorted (h : record.Ordered) : KeyMap.Sorted record := (ordered_iff.mp h).1

theorem of_get? (h : record.Ordered) (hv : KeyMap.get? record key = some v) : v.Ordered :=
  (ordered_iff.mp h).2 (key, v) (KeyMap.mem_of_get? hv)

theorem nil : Record.Ordered [] := ordered_iff.mpr ⟨List.Pairwise.nil, List.forall_mem_nil _⟩

theorem insert (h : record.Ordered) (key : String) (hv : v.Ordered) :
    Record.Ordered (KeyMap.insert record key v) := by
  refine ordered_iff.mpr ⟨h.sorted.insert key v, fun e he => ?_⟩
  rcases KeyMap.mem_insert he with rfl | he
  · exact hv
  · exact (ordered_iff.mp h).2 e he

theorem sublist (h : record.Ordered) (hs : current.Sublist record) : current.Ordered :=
  ordered_iff.mpr ⟨h.sorted.sublist hs, fun e he => (ordered_iff.mp h).2 e (hs.subset he)⟩

theorem erase (h : record.Ordered) (key : String) : Record.Ordered (KeyMap.erase record key) :=
  h.sublist List.filter_sublist

theorem without (h : record.Ordered) (keys : List String) :
    Record.Ordered (KeyMap.without record keys) :=
  h.sublist List.filter_sublist

theorem overlay {top : Record} (h : record.Ordered) (ht : ∀ e ∈ top, e.2.Ordered) :
    Record.Ordered (KeyMap.overlay record top) := by
  induction top with
  | nil => exact h
  | cons e top ih =>
    obtain ⟨he, ht⟩ := List.forall_mem_cons.mp ht
    exact (ih ht).insert e.1 he

end Ordered

end Record

theorem Pointer.ordered_toValue (p : Pointer) : p.toValue.Ordered := by
  have hsorted : KeyMap.Sorted
      [("__type", Value.str "Pointer"), ("className", .str p.className),
        ("objectId", .str p.objectId)] := by
    simp only [KeyMap.Sorted, List.pairwise_cons, List.forall_mem_cons]
    decide
  refine Record.ordered_iff.mpr ⟨hsorted, ?_⟩
  simp only [List.forall_mem_cons]
  exact ⟨.str _, .str _, .str _, List.forall_mem_nil _⟩

def OrderedRecord.toSorted (record : OrderedRecord) : SortedRecord := ⟨record.1, record.2.sorted⟩

namespace UpdateOp

inductive Ordered : UpdateOp → Prop where
  | increment (amount : Number) : Ordered (.increment amount)
  | add {objects : List Value} (each : ∀ v ∈ objects, v.Ordered) : Ordered (.add objects)
  | addUnique {objects : List Value} (each : ∀ v ∈ objects, v.Ordered) :
      Ordered (.addUnique objects)
  | remove (objects : List Value) : Ordered (.remove objects)
  | delete : Ordered .delete
  | addRelation {objects : List Value} (each : ∀ v ∈ objects, v.Ordered) :
      Ordered (.addRelation objects)
  | removeRelation (objects : List Value) : Ordered (.removeRelation objects)
  | batch {ops : List UpdateOp} (each : ∀ op ∈ ops, Ordered op) : Ordered (.batch ops)

variable {field : String}

theorem ordered_objects {fields : Record} {items : List Value} (h : fields.Ordered)
    (hi : objects field fields = .ok items) : ∀ v ∈ items, v.Ordered := by
  unfold objects at hi
  split at hi
  · cases hi
  · rename_i found
    obtain rfl := Except.ok.inj hi
    exact (h.of_get? found).items
  · cases hi

theorem ordered_ofTag {fields : Record} {tag : Value} {op : UpdateOp} (h : fields.Ordered)
    (ho : ofTag field fields tag = .ok op) : op.Ordered := by
  unfold ofTag at ho
  split at ho
  · obtain ⟨amount, -, rfl⟩ := map_eq_ok_iff.mp ho
    exact .increment amount
  · obtain ⟨items, hi, rfl⟩ := map_eq_ok_iff.mp ho
    exact .add (ordered_objects h hi)
  · obtain ⟨items, hi, rfl⟩ := map_eq_ok_iff.mp ho
    exact .addUnique (ordered_objects h hi)
  · obtain ⟨items, -, rfl⟩ := map_eq_ok_iff.mp ho
    exact .remove items
  · exact Except.ok.inj ho ▸ .delete
  · obtain ⟨items, hi, rfl⟩ := map_eq_ok_iff.mp ho
    exact .addRelation (ordered_objects h hi)
  · obtain ⟨items, -, rfl⟩ := map_eq_ok_iff.mp ho
    exact .removeRelation items
  · cases ho

theorem parseOps_of_ne {key : String} (h : key ≠ "ops") (v : Value) (rest : List (String × Value)) :
    parseOps field ((key, v) :: rest) = parseOps field rest :=
  (parseOps.eq_def field ((key, v) :: rest)).trans (if_neg h)

mutual

theorem ordered_of_parse (field : String) : ∀ (v : Value) {op : UpdateOp},
    v.Ordered → parse field v = .ok (some op) → op.Ordered
  | .obj fields, op, hv, h => by
    simp only [parse] at h
    split at h
    · cases h
    · obtain ⟨ops, hops, hbatch⟩ := map_eq_ok_iff.mp h
      obtain rfl := Option.some.inj hbatch
      exact .batch (ordered_of_parseOps field fields (Record.ordered_iff.mp hv).2 hops)
    · obtain ⟨op', ho, hsome⟩ := map_eq_ok_iff.mp h
      exact Option.some.inj hsome ▸ ordered_ofTag hv ho
  | .null, _, _, h | .bool _, _, _, h | .num _, _, _, h | .str _, _, _, h | .arr _, _, _, h => by
    cases h

theorem ordered_of_parseOps (field : String) :
    ∀ (fields : List (String × Value)) {ops : List UpdateOp},
    (∀ e ∈ fields, e.2.Ordered) → parseOps field fields = .ok ops → ∀ op ∈ ops, op.Ordered
  | [], _, _, h => by cases h
  | (key, v) :: rest, ops, hv, h => by
    obtain ⟨hfirst, hrest⟩ := List.forall_mem_cons.mp hv
    by_cases hkey : key = "ops"
    · cases v with
      | arr items =>
        rw [parseOps, if_pos hkey] at h
        exact ordered_of_parseEntries field items hfirst.items h
      | _ =>
        rw [parseOps, if_pos hkey] at h
        · cases h
        · exact nofun
    · rw [parseOps_of_ne hkey] at h
      exact ordered_of_parseOps field rest hrest h

theorem ordered_of_parseEntries (field : String) : ∀ (items : List Value) {ops : List UpdateOp},
    (∀ v ∈ items, v.Ordered) → parseEntries field items = .ok ops → ∀ op ∈ ops, op.Ordered
  | [], _, _, h => by
    obtain rfl := Except.ok.inj h
    exact List.forall_mem_nil _
  | v :: vs, ops, hv, h => by
    obtain ⟨hfirst, hrest⟩ := List.forall_mem_cons.mp hv
    simp only [parseEntries, bind_eq_ok_iff] at h
    obtain ⟨parsed, hp, h⟩ := h
    cases parsed with
    | none => cases h
    | some op =>
      obtain ⟨ops', hops, h⟩ := bind_eq_ok_iff.mp h
      obtain rfl := Except.ok.inj h
      exact List.forall_mem_cons.mpr
        ⟨ordered_of_parse field v hfirst hp, ordered_of_parseEntries field vs hrest hops⟩

end

def OrderedField (field : Option Value) : Prop := ∀ v, field = some v → v.Ordered

theorem orderedField_arr {items : List Value} (h : ∀ v ∈ items, v.Ordered) :
    OrderedField (some (.arr items)) :=
  fun _ hv => Option.some.inj hv ▸ .arr h

variable {current after : Option Value} {objects : List Value}

theorem ordered_listOf {items : List Value} (hc : OrderedField current)
    (h : listOf field current = .ok items) :
    ∀ v ∈ items, v.Ordered := by
  unfold listOf at h
  split at h
  · split at h
    · obtain rfl := Except.ok.inj h
      exact (hc _ rfl).items
    · cases h
  · obtain rfl := Except.ok.inj h
    exact List.forall_mem_nil _

theorem ordered_of_listOf {list : List Value → List Value} (hc : OrderedField current)
    (ho : ∀ v ∈ objects, v.Ordered) (hlist : ∀ items, ∀ v ∈ list items, v ∈ items ∨ v ∈ objects)
    (h : (listOf field current).map (fun items => some (.arr (list items))) = .ok after) :
    OrderedField after := by
  obtain ⟨items, hi, rfl⟩ := map_eq_ok_iff.mp h
  refine orderedField_arr fun v hv => ?_
  rcases hlist items v hv with hv | hv
  · exact ordered_listOf hc hi v hv
  · exact ho v hv

theorem mem_unite (items objects : List Value) :
    ∀ v ∈ unite items objects, v ∈ items ∨ v ∈ objects := by
  obtain ⟨added, heq, h⟩ := exists_unite items objects
  intro v hv
  rw [heq] at hv
  exact (List.mem_append.mp hv).imp_right fun ha => h.inOrder.subset ha

theorem ordered_removed (hc : OrderedField current)
    (h : removed field objects current = .ok after) :
    OrderedField after := by
  unfold removed at h
  split at h
  · exact Except.ok.inj h ▸ hc
  · rename_i items found
    obtain rfl := Except.ok.inj h
    have hcurrent := (present?_eq_some_iff.mp found).1
    exact orderedField_arr fun v hv => (hc _ hcurrent).items v (List.mem_filter.mp hv).1
  · cases h

theorem ordered_incremented {amount : Number} {v : Value}
    (h : incremented field amount current = .ok v) :
    v.Ordered := by
  have total (n : Number) (hn : incremented.sum field amount n = .ok v) : v.Ordered := by
    unfold incremented.sum at hn
    split at hn
    · exact Except.ok.inj hn ▸ .num _
    · cases hn
  unfold incremented at h
  split at h
  · exact total .zero h
  · exact total _ h
  · cases h

theorem ordered_resultOfAll {ops : List UpdateOp}
    (hops : ∀ op ∈ ops, ∀ {current after : Option Value}, OrderedField current →
      op.result field current = .ok after → OrderedField after)
    (hc : OrderedField current) (h : resultOfAll field ops current = .ok after) :
    OrderedField after := by
  induction ops generalizing current with
  | nil => exact Except.ok.inj h ▸ hc
  | cons op ops ih =>
    simp only [resultOfAll, bind_eq_ok_iff] at h
    obtain ⟨between, hfirst, hrest⟩ := h
    obtain ⟨hop, hops⟩ := List.forall_mem_cons.mp hops
    exact ih hops (hop hc hfirst) hrest

/-- The induction is on what is known of the operator, so that it reaches into batches. -/
theorem ordered_result {op : UpdateOp} (ho : op.Ordered) (hc : OrderedField current)
    (h : op.result field current = .ok after) : OrderedField after := by
  induction ho generalizing current after with
  | increment amount =>
    obtain ⟨v, hv, rfl⟩ := map_eq_ok_iff.mp h
    exact fun w hw => Option.some.inj hw ▸ ordered_incremented hv
  | add each => exact ordered_of_listOf hc each (fun _ _ => List.mem_append.mp) h
  | addUnique each => exact ordered_of_listOf hc each (fun items => mem_unite items _) h
  | remove objects => exact ordered_removed hc h
  | delete => exact Except.ok.inj h ▸ nofun
  | addRelation each => exact ordered_of_listOf hc each (fun _ _ => List.mem_append.mp) h
  | removeRelation objects => exact ordered_removed hc h
  | batch each ih => exact ordered_resultOfAll ih hc h

theorem ordered_setField {record : Record} (h : record.Ordered) (field : String)
    {value : Option Value} (hv : OrderedField value) :
    Record.Ordered (setField record field value) := by
  cases value with
  | none => exact h.erase field
  | some v => exact h.insert field (hv v rfl)

theorem ordered_applyAll {record result : Record} {ops : List (String × UpdateOp)}
    (hr : record.Ordered) (ho : ∀ e ∈ ops, e.2.Ordered) (h : applyAll record ops = .ok result) :
    result.Ordered := by
  induction ops generalizing record with
  | nil =>
    obtain rfl : record = result := Except.ok.inj h
    exact hr
  | cons e ops ih =>
    simp only [applyAll, bind_eq_ok_iff] at h
    obtain ⟨value, hvalue, h⟩ := h
    obtain ⟨hfirst, hrest⟩ := List.forall_mem_cons.mp ho
    have hfield : OrderedField value := ordered_result hfirst (fun v hv => hr.of_get? hv) hvalue
    exact ih (ordered_setField hr e.1 hfield) hrest h

theorem ordered_of_extract {changes literals : Record} {ops : List (String × UpdateOp)}
    (hc : changes.Ordered) (h : extract changes = .ok (ops, literals)) :
    ∀ e ∈ ops, e.2.Ordered := by
  rintro ⟨key, op⟩ hop
  obtain ⟨v, hv, hp⟩ := (mem_extract h key op).mp hop
  exact ordered_of_parse key v ((Record.ordered_iff.mp hc).2 (key, v) hv) hp

end UpdateOp

namespace Draft

theorem ordered_ofNew {fields : Record} {draft : Draft} (hf : fields.Ordered)
    (h : ofNew fields = .ok draft) :
    draft.record.Ordered := by
  obtain ⟨ops, literals, he, ha, -⟩ := ofNew_eq_ok h
  have hfields := hf.without identityFields
  exact UpdateOp.ordered_applyAll (hfields.sublist (UpdateOp.literals_sublist he))
    (UpdateOp.ordered_of_extract hfields he) ha

theorem ordered_ofChanges {stored changes : Record} {draft : Draft} (hs : stored.Ordered)
    (hc : changes.Ordered) (h : ofChanges stored changes = .ok draft) : draft.record.Ordered := by
  obtain ⟨ops, literals, he, ha, -⟩ := ofChanges_eq_ok h
  have hliterals := (hc.sublist (UpdateOp.literals_sublist he)).without identityFields
  exact UpdateOp.ordered_applyAll (hs.overlay (Record.ordered_iff.mp hliterals).2)
    (UpdateOp.ordered_of_extract hc he) ha

end Draft

/-- So the records of a run are ordered, however deep, where the payloads and what the hooks answer
are. -/
theorem Record.kept_ordered : Record.Kept Record.Ordered where
  nil := .nil
  ofNew := Draft.ordered_ofNew
  ofChanges := Draft.ordered_ofChanges
  stamped field text h := h.insert field (.str text)
  carried h hcurrent hv := h.insert _ (hcurrent.of_get? hv)
  erased field h := h.erase field

end DocumentStore
