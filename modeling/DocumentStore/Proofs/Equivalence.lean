import DocumentStore.Proofs.Listing
import DocumentStore.Proofs.Sorted
import Mathlib.Data.List.Perm.Subperm

/-!
The two relations of equality, and the rule that is none. Values equal in structure, and entries of
a list that stand for each other, are so mutually and in chains; of objects it is enough to look the
fields of the one up in the other. The equality rule looks through the lists on the stored side
only: it asks whether some node there agrees with the parameter.
-/

namespace DocumentStore

namespace KeyMap

variable {α : Type} {m m' : KeyMap α}

theorem Sorted.pairwise_keys (h : Sorted m) : (keys m).Pairwise (· < ·) := List.pairwise_map.mpr h

theorem Sorted.keys_eq_of_subset (h : Sorted m) (h' : Sorted m') (hlength : m.length = m'.length)
    (hsub : keys m ⊆ keys m') :
    keys m = keys m' := by
  have hnodup : (keys m).Nodup := h.pairwise_keys.imp String.ne_of_lt
  have hle : (keys m').length ≤ (keys m).length := by
    simp only [keys, List.length_map, hlength, Nat.le_refl]
  have hperm : (keys m).Perm (keys m') := (List.subperm_of_subset hnodup hsub).perm_of_length_le hle
  exact hperm.eq_of_pairwise (fun a b _ _ hab hba => absurd hab (String.lt_asymm hba))
    h.pairwise_keys h'.pairwise_keys

end KeyMap

namespace Value

variable {v w x : Value} {fields others : Record}

theorem length_eq_of_equalFields (h : equalFields fields others = true) :
    fields.length = others.length := by
  induction fields generalizing others with
  | nil => rw [equalFields_nil h]
  | cons e fields ih =>
    obtain ⟨w, others, rfl, -, hrest⟩ := equalFields_cons h
    rw [List.length_cons, List.length_cons, ih hrest]

def FoundIn (fields others : Record) : Prop :=
  ∀ key v, KeyMap.get? fields key = some v → ∃ w, KeyMap.get? others key = some w ∧ v.equal w = true

theorem foundIn_of_equalFields (h : equalFields fields others = true) : FoundIn fields others := by
  intro key v hv
  have hrel := get?_fieldsEqual h key
  rw [hv] at hrel
  cases hw : KeyMap.get? others key with
  | none =>
    rw [hw] at hrel
    cases hrel
  | some w =>
    rw [hw] at hrel
    cases hrel with
    | some hequal => exact ⟨w, rfl, hequal⟩

theorem equalFields_of_foundIn (h : KeyMap.Sorted fields)
    (hkeys : KeyMap.keys fields = KeyMap.keys others) (hfound : FoundIn fields others) :
    equalFields fields others = true := by
  induction fields generalizing others with
  | nil =>
    obtain rfl : others = [] := List.map_eq_nil_iff.mp hkeys.symm
    rfl
  | cons e fields ih =>
    obtain ⟨other, others, rfl, hkey, hrest⟩ := List.map_eq_cons_iff.mp hkeys.symm
    have hkey : other.1 = e.1 := hkey
    have hself : e.2.equal other.2 = true := by
      obtain ⟨w, hw, hequal⟩ := hfound e.1 e.2 (KeyMap.get?_cons_self e fields)
      rw [← hkey, KeyMap.get?_cons_self other others] at hw
      exact Option.some.inj hw ▸ hequal
    have htail : FoundIn fields others := by
      intro key v hv
      have hne : e.1 ≠ key := by
        rintro rfl
        rw [h.get?_tail, if_pos rfl] at hv
        cases hv
      obtain ⟨w, hw, hequal⟩ := hfound key v ((if_neg hne).trans hv)
      exact ⟨w, (if_neg (hkey ▸ hne)).symm.trans hw, hequal⟩
    rw [equalFields, hkey, beq_self_eq_true, hself, ih (List.pairwise_cons.mp h).2 hrest.symm htail]
    rfl

theorem equal_obj_iff (fields others : SortedRecord) :
    (Value.obj fields).equal (.obj others) = true ↔
      fields.1.length = others.1.length ∧ FoundIn fields others := by
  constructor
  · intro hequal
    exact ⟨length_eq_of_equalFields hequal, foundIn_of_equalFields hequal⟩
  · rintro ⟨hlength, hfound⟩
    have hsub : KeyMap.keys fields.1 ⊆ KeyMap.keys others.1 := by
      intro key hkey
      obtain ⟨v, hv⟩ := (KeyMap.mem_keys_iff fields.1 key).mp hkey
      obtain ⟨w, hw, -⟩ := hfound key v hv
      exact (KeyMap.mem_keys_iff others.1 key).mpr ⟨w, hw⟩
    exact equalFields_of_foundIn fields.2 (fields.2.keys_eq_of_subset others.2 hlength hsub) hfound

theorem sameObjectId_iff :
    v.sameObjectId w = true ↔ ∃ id, v.objectId? = some id ∧ w.objectId? = some id := by
  simp only [sameObjectId, Option.any_eq_true, beq_iff_eq]

theorem sameInstant_iff : v.sameInstant w = true ↔
    (v.isDate = true ∨ w.isDate = true) ∧ ∃ t, v.instant? = some t ∧ w.instant? = some t := by
  simp only [sameInstant, Bool.and_eq_true, Bool.or_eq_true, Option.any_eq_true, beq_iff_eq]

theorem sameEntry_iff : v.sameEntry w = true ↔ v.equal w = true ∨ v.sameObjectId w = true := by
  rw [sameEntry, Bool.or_eq_true]

theorem equal_equivalence : Equivalence fun v w : Value => v.equal w = true where
  refl := equal_refl
  symm := equal_symm
  trans := equal_trans

theorem sameEntry_trans (h : v.sameEntry w = true) (h' : w.sameEntry x = true) :
    v.sameEntry x = true := by
  rw [sameEntry_iff] at h h' ⊢
  rcases h with hequal | hid
  · rcases h' with hequal' | hid'
    · exact .inl (equal_trans hequal hequal')
    · have hsame : v.objectId? = w.objectId? := textField?_eq hequal _
      rw [sameObjectId_iff, ← hsame] at hid'
      exact .inr (sameObjectId_iff.mpr hid')
  · obtain ⟨id, hv, hw⟩ := sameObjectId_iff.mp hid
    refine .inr (sameObjectId_iff.mpr ⟨id, hv, ?_⟩)
    rcases h' with hequal' | hid'
    · exact (textField?_eq hequal' _).symm.trans hw
    · obtain ⟨id', hw', hx⟩ := sameObjectId_iff.mp hid'
      exact hx.trans (hw'.symm.trans hw)

theorem sameEntry_symm (h : v.sameEntry w = true) : w.sameEntry v = true := by
  rw [sameEntry_iff, sameObjectId_iff] at h ⊢
  rcases h with hequal | ⟨id, hv, hw⟩
  · exact .inl (equal_symm hequal)
  · exact .inr ⟨id, hw, hv⟩

theorem sameEntry_equivalence : Equivalence fun v w : Value => v.sameEntry w = true where
  refl v := sameEntry_iff.mpr (.inl v.equal_refl)
  symm := sameEntry_symm
  trans := sameEntry_trans

/-- What the shapes of records read of two values is the same. -/
structure ReadsAlike (v w : Value) : Prop where
  truthy : v.isTruthy = w.isTruthy
  typeTag : v.typeTag? = w.typeTag?
  objectId : v.objectId? = w.objectId?
  dateInstant : v.dateInstant? = w.dateInstant?
  instant : v.instant? = w.instant?

theorem readsAlike_of_equal (h : v.equal w = true) : ReadsAlike v w where
  truthy := isTruthy_eq h
  typeTag := textField?_eq h _
  objectId := textField?_eq h _
  dateInstant := dateInstant?_eq h
  instant := instant?_eq h

/--
Equality in structure is an equivalence of all values, and so is standing for an entry of a list.
Equal values read alike. Objects, whose names stand in rising order, are equal when they have as
many fields and those of the one are found in the other.
-/
theorem equalities_are_equivalences :
    (Equivalence fun v w : Value => v.equal w = true) ∧
    (Equivalence fun v w : Value => v.sameEntry w = true) ∧
      (∀ v w : Value, v.equal w = true → ReadsAlike v w) ∧
      ∀ fields others : SortedRecord, (Value.obj fields).equal (.obj others) = true ↔
        fields.1.length = others.1.length ∧ FoundIn fields others :=
  ⟨equal_equivalence, sameEntry_equivalence, fun _ _ => readsAlike_of_equal, equal_obj_iff⟩

def dated (count : Number) : SortedRecord where
  val := [("__type", .str "Date"), ("count", .num count), ("iso", .str "2026-01-01T01:00:00+01:00"),
    ("objectId", .str "1")]
  property := by
    simp only [KeyMap.Sorted, List.pairwise_cons, List.forall_mem_cons]
    decide

theorem equalities_are_equivalences_dated :
    (Value.obj (dated (.int 30 (by decide)))).equal (.obj (dated (.double (Double.ofInt 30)))) =
      true ∧
      ReadsAlike (.obj (dated (.int 30 (by decide)))) (.obj (dated (.double (Double.ofInt 30)))) ∧
      FoundIn (dated (.int 30 (by decide))) (dated (.double (Double.ofInt 30))) := by
  have hequal :
      (Value.obj (dated (.int 30 (by decide)))).equal (.obj (dated (.double (Double.ofInt 30)))) =
        true := by
    simp only [equal, equalFields, dated, Number.sameValue, Number.toDouble, beq_self_eq_true,
      Bool.and_self]
  obtain ⟨-, -, halike, hobjects⟩ := equalities_are_equivalences
  exact ⟨hequal, halike _ _ hequal, ((hobjects _ _).mp hequal).2⟩

/-! The equality rule. -/

theorem mem_nodes_self (v : Value) : v ∈ v.nodes := by
  cases v <;> simp [nodes]

theorem agrees_iff :
    v.agrees w = true ↔ v.equal w = true ∨ v.sameObjectId w = true ∨ v.sameInstant w = true := by
  rw [agrees, Bool.or_eq_true, Bool.or_eq_true, or_assoc]

end Value

theorem fieldEquals_iff {field param : Option Value} :
    fieldEquals field param = true ↔ present? field = none ∧ present? param = none ∨
      ∃ f p, present? field = some f ∧ present? param = some p ∧ ∃ node ∈ f.nodes,
        node.agrees p = true := by
  unfold fieldEquals
  cases present? field <;> cases present? param <;> simp [Value.holds_iff]

/--
Between a stored value and a parameter the equality rule holds when both are absent or `null`, or
neither is, and some node of the stored value is equal to the parameter, has its id, or denotes its
instant where one of the two is a tagged date. So it holds of each value and itself.
-/
theorem fieldEquals_iff_some_node (field param : Option Value) :
    (fieldEquals field param = true ↔
      field.getD .null = .null ∧ param.getD .null = .null ∨
        ∃ f p, field = some f ∧ f ≠ .null ∧ param = some p ∧ p ≠ .null ∧ ∃ node ∈ f.nodes,
          node.equal p = true ∨ (∃ id, node.objectId? = some id ∧ p.objectId? = some id) ∨
            (node.isDate = true ∨ p.isDate = true) ∧ ∃ t,
              node.instant? = some t ∧ p.instant? = some t) ∧
      fieldEquals field field = true := by
  constructor
  · simp only [fieldEquals_iff, present?_eq_none_iff, present?_eq_some_iff, Value.agrees_iff,
      Value.sameObjectId_iff, Value.sameInstant_iff, and_assoc]
  · rw [fieldEquals_iff]
    cases hf : present? field with
    | none => exact .inl ⟨rfl, rfl⟩
    | some f =>
      exact .inr ⟨f, f, rfl, rfl, f, f.mem_nodes_self, Value.agrees_iff.mpr (.inl f.equal_refl)⟩

end DocumentStore
