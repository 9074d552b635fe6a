import DocumentStore.Order
import DocumentStore.Equality
import DocumentStore.Proofs.Contents

/-!
Equality of values. It is an equivalence relation, and what the equality rule, the orders and the
shapes read of a value they read alike of every equal one: the way in which a number is written
shows in none of them.
-/

namespace DocumentStore

theorem Double.isZero_eq (d : Double) : d.isZero = (d.key == 0) := by
  unfold isZero key
  rw [Bool.eq_iff_iff, beq_iff_eq, beq_iff_eq]
  split <;> omega

namespace Value

/-- What two equal values have in common. -/
inductive Paired : Value → Value → Prop where
  | null : Paired .null .null
  | bool (flag : Bool) : Paired (.bool flag) (.bool flag)
  | num {a b : Number} (key : a.toDouble.key = b.toDouble.key) : Paired (.num a) (.num b)
  | str (text : String) : Paired (.str text) (.str text)
  | arr {as bs : List Value} (items : equalItems as bs = true) : Paired (.arr as) (.arr bs)
  | obj {as bs : List (String × Value)} (fields : equalFields as bs = true) :
      Paired (.obj as) (.obj bs)

theorem paired_of_equal {a b : Value} (h : a.equal b = true) : Paired a b := by
  unfold equal at h
  split at h
  · exact .null
  · exact eq_of_beq h ▸ .bool _
  · exact .num (eq_of_beq h)
  · exact eq_of_beq h ▸ .str _
  · exact .arr h
  · exact .obj h
  · cases h

theorem equalItems_cons {a : Value} {as bs : List Value} (h : equalItems (a :: as) bs = true) :
    ∃ b bs', bs = b :: bs' ∧ a.equal b = true ∧ equalItems as bs' = true := by
  cases bs with
  | nil => cases h
  | cons b bs' =>
    rw [equalItems, Bool.and_eq_true] at h
    exact ⟨b, bs', rfl, h.1, h.2⟩

theorem equalItems_nil {bs : List Value} (h : equalItems [] bs = true) : bs = [] := by
  cases bs with
  | nil => rfl
  | cons b bs' => cases h

theorem equalFields_cons {key : String} {a : Value} {as bs : List (String × Value)}
    (h : equalFields ((key, a) :: as) bs = true) :
    ∃ b bs', bs = (key, b) :: bs' ∧ a.equal b = true ∧ equalFields as bs' = true := by
  cases bs with
  | nil => cases h
  | cons e bs' =>
    rw [equalFields, Bool.and_eq_true, Bool.and_eq_true, beq_iff_eq] at h
    exact ⟨e.2, bs', by rw [h.1.1], h.1.2, h.2⟩

theorem equalFields_nil {bs : List (String × Value)} (h : equalFields [] bs = true) : bs = [] := by
  cases bs with
  | nil => rfl
  | cons e bs' => cases h

mutual

theorem equal_refl : ∀ v : Value, v.equal v = true
  | .null => rfl
  | .bool flag => beq_self_eq_true flag
  | .num n => beq_self_eq_true n.toDouble.key
  | .str text => beq_self_eq_true text
  | .arr items => equalItems_refl items
  | .obj fields => equalFields_refl fields

theorem equalItems_refl : ∀ items : List Value, equalItems items items = true
  | [] => rfl
  | v :: vs => by rw [equalItems, equal_refl v, equalItems_refl vs, Bool.and_self]

theorem equalFields_refl : ∀ fields : List (String × Value), equalFields fields fields = true
  | [] => rfl
  | (key, v) :: vs => by
    rw [equalFields, beq_self_eq_true, equal_refl v, equalFields_refl vs, Bool.and_self,
      Bool.and_self]

end

mutual

/-- Equal values are equal to the same values. Symmetry and transitivity follow from this and
reflexivity. -/
theorem equal_left : ∀ a b : Value, a.equal b = true → ∀ c, a.equal c = b.equal c
  | .null, b, h, c | .bool _, b, h, c | .str _, b, h, c => by
    cases paired_of_equal h
    rfl
  | .num m, b, h, c => by
    cases paired_of_equal h with
    | num key => cases c <;> simp only [equal, Number.sameValue, key]
  | .arr as, b, h, c => by
    cases paired_of_equal h with
    | arr items => cases c <;> simp only [equal, equalItems_left as _ items]
  | .obj as, b, h, c => by
    cases paired_of_equal h with
    | obj fields => cases c <;> simp only [equal, equalFields_left as _ fields]

theorem equalItems_left :
    ∀ as bs : List Value, equalItems as bs = true → ∀ cs, equalItems as cs = equalItems bs cs
  | [], bs, h, cs => by rw [equalItems_nil h]
  | a :: as, bs, h, cs => by
    obtain ⟨b, bs', rfl, hb, hbs⟩ := equalItems_cons h
    cases cs with
    | nil => rfl
    | cons c cs => rw [equalItems, equalItems, equal_left a b hb, equalItems_left as bs' hbs]

theorem equalFields_left : ∀ as bs : List (String × Value), equalFields as bs = true →
    ∀ cs, equalFields as cs = equalFields bs cs
  | [], bs, h, cs => by rw [equalFields_nil h]
  | (key, a) :: as, bs, h, cs => by
    obtain ⟨b, bs', rfl, hb, hbs⟩ := equalFields_cons h
    cases cs with
    | nil => rfl
    | cons c cs => rw [equalFields, equalFields, equal_left a b hb, equalFields_left as bs' hbs]

end

variable {a a' b b' c v w : Value}

theorem equal_symm (h : a.equal b = true) : b.equal a = true := by
  rw [← equal_left a b h]
  exact equal_refl a

theorem equal_trans (h : a.equal b = true) (h' : b.equal c = true) : a.equal c = true := by
  rw [equal_left a b h]
  exact h'

theorem equal_congr (ha : a.equal a' = true) (hb : b.equal b' = true) :
    a.equal b = a'.equal b' := by
  have hright : a'.equal b = a'.equal b' := by
    rw [Bool.eq_iff_iff]
    exact ⟨fun h => equal_trans h hb, fun h => equal_trans h (equal_symm hb)⟩
  rw [equal_left a a' ha, hright]

end Value

abbrev FieldsEqual : Option Value → Option Value → Prop := Option.Rel fun v w => v.equal w = true

theorem FieldsEqual.cases {field field' : Option Value} (h : FieldsEqual field field') :
    field = none ∧ field' = none ∨ ∃ v w, field = some v ∧ field' = some w ∧ v.equal w = true := by
  cases h with
  | none => exact .inl ⟨rfl, rfl⟩
  | some h => exact .inr ⟨_, _, rfl, rfl, h⟩

theorem FieldsEqual.refl (field : Option Value) : FieldsEqual field field := by
  cases field with
  | none => exact .none
  | some v => exact .some v.equal_refl

namespace Value

theorem get?_fieldsEqual {as bs : List (String × Value)} (h : equalFields as bs = true)
    (key : String) :
    FieldsEqual (KeyMap.get? as key) (KeyMap.get? bs key) := by
  induction as generalizing bs with
  | nil =>
    rw [equalFields_nil h]
    exact .none
  | cons e as ih =>
    obtain ⟨b, bs', rfl, hb, hbs⟩ := equalFields_cons h
    simp only [KeyMap.get?]
    split
    · exact .some hb
    · exact ih hbs

variable {v w : Value}

theorem field?_fieldsEqual (h : v.equal w = true) (name : String) :
    FieldsEqual (v.field? name) (w.field? name) := by
  cases paired_of_equal h with
  | obj fields => exact get?_fieldsEqual fields name
  | _ => exact .none

theorem asText?_eq (h : v.equal w = true) : v.asText? = w.asText? := by
  cases paired_of_equal h <;> rfl

end Value

theorem FieldsEqual.asText?_eq {field field' : Option Value} (h : FieldsEqual field field') :
    field.bind Value.asText? = field'.bind Value.asText? := by
  cases h with
  | none => rfl
  | some h => exact Value.asText?_eq h

namespace Value

variable {v w p q : Value}

theorem textField?_eq (h : v.equal w = true) (name : String) :
    v.textField? name = w.textField? name :=
  (field?_fieldsEqual h name).asText?_eq

theorem isPointer_eq (h : v.equal w = true) : v.isPointer = w.isPointer := by
  rw [isPointer, isPointer, typeTag?, typeTag?, textField?_eq h]

theorem isDate_eq (h : v.equal w = true) : v.isDate = w.isDate := by
  rw [isDate, isDate, typeTag?, typeTag?, textField?_eq h, textField?_eq h]

theorem dateInstant?_eq (h : v.equal w = true) : v.dateInstant? = w.dateInstant? := by
  rw [dateInstant?, dateInstant?, isDate_eq h, textField?_eq h]

theorem instant?_eq (h : v.equal w = true) : v.instant? = w.instant? := by
  have hdate := dateInstant?_eq h
  cases paired_of_equal h with
  | str text => rfl
  | _ => exact hdate

theorem ofValue?_eq (h : v.equal w = true) : Pointer.ofValue? v = Pointer.ofValue? w := by
  rw [Pointer.ofValue?, Pointer.ofValue?, textField?_eq h, textField?_eq h]

theorem isTruthy_eq (h : v.equal w = true) : v.isTruthy = w.isTruthy := by
  cases paired_of_equal h with
  | num key => rw [isTruthy, isTruthy, Double.isZero_eq, Double.isZero_eq, key]
  | _ => rfl

mutual

theorem depth_eq : ∀ v w : Value, v.equal w = true → v.depth = w.depth
  | .null, w, h | .bool _, w, h | .num _, w, h | .str _, w, h => by
    cases paired_of_equal h
    · rfl
  | .arr as, w, h => by
    cases paired_of_equal h with
    | arr items => rw [depth, depth, depthItems_eq as _ items]
  | .obj as, w, h => by
    cases paired_of_equal h with
    | obj fields => rw [depth, depth, depthFields_eq as _ fields]

theorem depthItems_eq :
    ∀ as bs : List Value, equalItems as bs = true → depthItems as = depthItems bs
  | [], bs, h => by rw [equalItems_nil h]
  | a :: as, bs, h => by
    obtain ⟨b, bs', rfl, hb, hbs⟩ := equalItems_cons h
    rw [depthItems, depthItems, depth_eq a b hb, depthItems_eq as bs' hbs]

theorem depthFields_eq :
    ∀ as bs : List (String × Value), equalFields as bs = true → depthFields as = depthFields bs
  | [], bs, h => by rw [equalFields_nil h]
  | (key, a) :: as, bs, h => by
    obtain ⟨b, bs', rfl, hb, hbs⟩ := equalFields_cons h
    rw [depthFields, depthFields, depth_eq a b hb, depthFields_eq as bs' hbs]

end

theorem map_eq_of_equalItems {α : Type} {f g : Value → α}
    (hfg : ∀ v w, v.equal w = true → f v = g w) {as bs : List Value} (h : equalItems as bs = true) :
    as.map f = bs.map g := by
  induction as generalizing bs with
  | nil => rw [equalItems_nil h, List.map_nil, List.map_nil]
  | cons a as ih =>
    obtain ⟨b, bs', rfl, hb, hbs⟩ := equalItems_cons h
    rw [List.map_cons, List.map_cons, hfg a b hb, ih hbs]

theorem equalItems_asItems (h : v.equal w = true) : equalItems v.asItems w.asItems = true := by
  have hsingle : equalItems [v] [w] = true := by
    rw [equalItems, h]
    rfl
  cases paired_of_equal h with
  | arr items => exact items
  | _ => exact hsingle

/-! The equality rule between a stored value and a parameter. -/

theorem agrees_eq (hv : v.equal w = true) (hp : p.equal q = true) : v.agrees p = w.agrees q := by
  have hid : v.objectId? = w.objectId? := textField?_eq hv _
  have hid' : p.objectId? = q.objectId? := textField?_eq hp _
  have hobject : v.sameObjectId p = w.sameObjectId q := by
    rw [sameObjectId, sameObjectId, hid, hid']
  have hinstant : v.sameInstant p = w.sameInstant q := by
    rw [sameInstant, sameInstant, isDate_eq hv, isDate_eq hp, instant?_eq hv, instant?_eq hp]
  rw [agrees, agrees, equal_congr hv hp, hobject, hinstant]

mutual

theorem holds_eq (hp : p.equal q = true) : ∀ v w : Value, v.equal w = true → holds p v = holds q w
  | .null, w, h | .bool _, w, h | .num _, w, h | .str _, w, h | .obj _, w, h => by
    have hagrees := agrees_eq h hp
    cases paired_of_equal h
    · exact hagrees
  | .arr as, w, h => by
    have hagrees := agrees_eq h hp
    cases paired_of_equal h with
    | arr items => rw [holds, holds, hagrees, holdsAmong_eq hp as _ items]

theorem holdsAmong_eq (hp : p.equal q = true) : ∀ as bs : List Value, equalItems as bs = true →
    holdsAmong p as = holdsAmong q bs
  | [], bs, h => by rw [equalItems_nil h, holdsAmong, holdsAmong]
  | a :: as, bs, h => by
    obtain ⟨b, bs', rfl, hb, hbs⟩ := equalItems_cons h
    rw [holdsAmong, holdsAmong, holds_eq hp a b hb, holdsAmong_eq hp as bs' hbs]

end

end Value

theorem present?_eq_none_iff {field : Option Value} :
    present? field = none ↔ field.getD .null = .null := by
  cases field with
  | none => exact ⟨fun _ => rfl, fun _ => rfl⟩
  | some v => cases v <;> simp [present?]

theorem present?_eq_some_iff {field : Option Value} {v : Value} :
    present? field = some v ↔ field = some v ∧ v ≠ .null := by
  cases field with
  | none => simp [present?]
  | some w => cases w <;> simp +contextual [present?, eq_comm]

namespace FieldsEqual

variable {field field' param param' : Option Value}

theorem present? (h : FieldsEqual field field') :
    FieldsEqual (DocumentStore.present? field) (DocumentStore.present? field') := by
  cases h with
  | none => exact .none
  | some h =>
    cases Value.paired_of_equal h with
    | null => exact .none
    | _ => exact .some h

theorem fieldEquals_eq (h : FieldsEqual field field') (hp : FieldsEqual param param') :
    fieldEquals field param = fieldEquals field' param' := by
  have hfield := h.present?
  have hparam := hp.present?
  unfold fieldEquals
  generalize DocumentStore.present? field = f, DocumentStore.present? field' = f' at hfield
  generalize DocumentStore.present? param = p, DocumentStore.present? param' = p' at hparam
  cases hfield with
  | none => cases hparam <;> rfl
  | some hv =>
    cases hparam with
    | none => rfl
    | some hw => exact Value.holds_eq hw _ _ hv

theorem isTruthy_eq (h : FieldsEqual field field') : isTruthy field = isTruthy field' := by
  cases h with
  | none => rfl
  | some h => exact Value.isTruthy_eq h

theorem objectId?_eq (h : FieldsEqual field field') :
    field.bind Value.objectId? = field'.bind Value.objectId? := by
  cases h with
  | none => rfl
  | some h => exact Value.textField?_eq h _

theorem pointer?_eq (h : FieldsEqual field field') :
    field.bind Pointer.ofValue? = field'.bind Pointer.ofValue? := by
  cases h with
  | none => rfl
  | some h => exact Value.ofValue?_eq h

theorem bind_field? (h : FieldsEqual field field') (key : String) :
    FieldsEqual (field.bind (·.field? key)) (field'.bind (·.field? key)) := by
  cases h with
  | none => exact .none
  | some h => exact Value.field?_fieldsEqual h key

end FieldsEqual

namespace Comparable

theorem compare?_eq {v v' w w' : Value} (hv : v.equal v' = true) (hw : w.equal w' = true) :
    (ofValue v).compare? (ofValue w) = (ofValue v').compare? (ofValue w') := by
  have hleft (d : Comparable) : (ofValue v).compare? d = (ofValue v').compare? d := by
    have hdate := Value.dateInstant?_eq hv
    cases Value.paired_of_equal hv with
    | num key => cases d <;> simp only [ofValue, compare?, key]
    | obj fields => simp only [ofValue, hdate]
    | _ => rfl
  have hright (d : Comparable) : d.compare? (ofValue w) = d.compare? (ofValue w') := by
    have hdate := Value.dateInstant?_eq hw
    cases Value.paired_of_equal hw with
    | num key => cases d <;> simp only [ofValue, compare?, key]
    | obj fields => simp only [ofValue, hdate]
    | _ => rfl
  rw [hleft, hright]

end Comparable

theorem FieldsEqual.compareField?_eq {field field' : Option Value} {p q : Value}
    (h : FieldsEqual field field') (hp : p.equal q = true) :
    compareField? field p = compareField? field' q := by
  cases h with
  | none => rfl
  | some h => exact Comparable.compare?_eq h hp

end DocumentStore
