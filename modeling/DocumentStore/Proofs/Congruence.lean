import DocumentStore.Proofs.Equality
import DocumentStore.Proofs.Reading
import DocumentStore.Proofs.Subqueries
import Mathlib.Data.List.Forall2

/-!
Matching in two stores side by side. Where the records under one id are equal in the two, and so are
the values that two clauses are read from, both searches fail or both find the records under the
same ids. How a number is written, in a record or in a clause, decides nothing.
-/

namespace DocumentStore

inductive Concur {α β : Type} (R : α → β → Prop) : Except Fault α → Except Fault β → Prop where
  | ok {a : α} {b : β} (related : R a b) : Concur R (.ok a) (.ok b)
  | fault (reason reason' : QueryFault) :
      Concur R (.error (.query reason)) (.error (.query reason'))

section Concur

variable {α β γ δ : Type} {R : α → β → Prop} {S : γ → δ → Prop} {x : Except Fault α}
  {y : Except Fault β}

theorem Concur.bind (h : Concur R x y) {f : α → Except Fault γ} {g : β → Except Fault δ}
    (hfg : ∀ a b, R a b → Concur S (f a) (g b)) : Concur S (x >>= f) (y >>= g) := by
  cases h with
  | ok related => exact hfg _ _ related
  | fault reason reason' => exact .fault reason reason'

theorem Concur.map (h : Concur R x y) {f : α → γ} {g : β → δ} (hfg : ∀ a b, R a b → S (f a) (g b)) :
    Concur S (x.map f) (y.map g) := by
  cases h with
  | ok related => exact .ok (hfg _ _ related)
  | fault reason reason' => exact .fault reason reason'

theorem Concur.mono {R' : α → β → Prop} (h : Concur R x y) (hr : ∀ a b, R a b → R' a b) :
    Concur R' x y := by
  cases h with
  | ok related => exact .ok (hr _ _ related)
  | fault reason reason' => exact .fault reason reason'

end Concur

abbrev SameVerdict : Except Fault Bool → Except Fault Bool → Prop := Concur (· = ·)

theorem allHold_sameVerdict {α : Type} {R : α → α → Prop} {test test' : α → Except Fault Bool}
    (ht : ∀ a b, R a b → SameVerdict (test a) (test' b)) {as bs : List α}
    (h : List.Forall₂ R as bs) :
    SameVerdict (allHold test as) (allHold test' bs) := by
  induction h with
  | nil => exact .ok rfl
  | cons hab _ ih =>
    refine (ht _ _ hab).bind fun a b hsame => ?_
    subst hsame
    split
    · exact ih
    · exact .ok rfl

/-! Clauses read from equal values -/

inductive Constraint.Same : Constraint → Constraint → Prop where
  | operator (op : Operator) {p q : Value} (param : p.equal q = true) :
      Same (.operator op p) (.operator op q)
  | subKey (key : String) {p q : Value} (param : p.equal q = true) :
      Same (.subKey key p) (.subKey key q)

inductive FieldTest.Same : FieldTest → FieldTest → Prop where
  | equals {p q : Value} (param : p.equal q = true) : Same (.equals p) (.equals q)
  | constraints {as bs : List Constraint} (each : List.Forall₂ Constraint.Same as bs) :
    Same (.constraints as) (.constraints bs)

/-- The two clauses are one but for parameters, which are equal. -/
inductive Clause.Same : Clause → Clause → Prop where
  | and {as bs : List Clause} (each : List.Forall₂ Same as bs) : Same (.and as) (.and bs)
  | or {as bs : List Clause} (each : List.Forall₂ Same as bs) : Same (.or as) (.or bs)
  | record (op : Operator) {p q : Value} (param : p.equal q = true) :
      Same (.record op p) (.record op q)
  | field (path : FieldPath) {t u : FieldTest} (test : t.Same u) :
      Same (.field path t) (.field path u)

theorem Constraint.same_ofEntry (key : String) {v w : Value} (h : v.equal w = true) :
    (ofEntry (key, v)).Same (ofEntry (key, w)) := by
  simp only [ofEntry]
  cases Operator.ofKey? key with
  | some op => exact .operator op h
  | none => exact .subKey key h

theorem forall₂_of_equalFields {α : Type} {R : α → α → Prop} {f : String × Value → α}
    (hf : ∀ key v w, v.equal w = true → R (f (key, v)) (f (key, w))) {as bs : List (String × Value)}
    (h : Value.equalFields as bs = true) : List.Forall₂ R (as.map f) (bs.map f) := by
  induction as generalizing bs with
  | nil =>
    rw [Value.equalFields_nil h]
    exact .nil
  | cons e as ih =>
    obtain ⟨b, bs', rfl, hb, hbs⟩ := Value.equalFields_cons h
    exact .cons (hf e.1 e.2 b hb) (ih hbs)

theorem FieldTest.same_ofValue {v w : Value} (h : v.equal w = true) :
    (ofValue v).Same (ofValue w) := by
  have hpointer := Value.isPointer_eq h
  have hdate := Value.isDate_eq h
  have hequals : (equals v).Same (equals w) := .equals h
  cases Value.paired_of_equal h with
  | obj fields =>
    rw [ofValue, ofValue, hpointer, hdate]
    split
    · exact hequals
    · exact .constraints (forall₂_of_equalFields Constraint.same_ofEntry fields)
  | _ => exact hequals

namespace Clause

theorem same_ofEntry (key : String) {v w : Value} (h : v.equal w = true) :
    (ofEntry (key, v)).Same (ofEntry (key, w)) := by
  simp only [ofEntry]
  cases Operator.ofKey? key with
  | some op => exact .record op h
  | none => exact .field _ (FieldTest.same_ofValue h)

mutual

theorem parse_concur : ∀ v w : Value, v.equal w = true → Concur Same (parse v) (parse w)
  | .null, w, h => by
    cases Value.paired_of_equal h
    exact .ok (.and .nil)
  | .obj fields, w, h => by
    cases Value.paired_of_equal h with
    | @obj _ others hfields =>
      have hor := branches?_concur "$or" fields others hfields
      have hand := branches?_concur "$and" fields others hfields
      rw [parse, parse]
      generalize branches? "$or" fields = listed, branches? "$or" others = listed' at hor ⊢
      cases hor with
      | some hparts => exact hparts.map fun _ _ each => .or each
      | none =>
        generalize branches? "$and" fields = listed, branches? "$and" others = listed' at hand ⊢
        cases hand with
        | some hparts => exact hparts.map fun _ _ each => .and each
        | none => exact .ok (.and (forall₂_of_equalFields same_ofEntry hfields))
  | .bool _, w, h | .num _, w, h | .str _, w, h | .arr _, w, h => by
    cases Value.paired_of_equal h
    exact .fault _ _

theorem branches?_concur (key : String) :
    ∀ as bs : List (String × Value), Value.equalFields as bs = true →
    Option.Rel (Concur (List.Forall₂ Same)) (branches? key as) (branches? key bs)
  | [], bs, h => by
    rw [Value.equalFields_nil h]
    exact .none
  | (name, v) :: as, bs, h => by
    obtain ⟨w, bs', rfl, hw, hbs⟩ := Value.equalFields_cons h
    rw [branches?_cons, branches?_cons]
    split
    · exact .some (listed_concur key v w hw)
    · exact branches?_concur key as bs' hbs

theorem listed_concur (key : String) : ∀ v w : Value, v.equal w = true →
    Concur (List.Forall₂ Same) (listed key v) (listed key w)
  | .arr items, w, h => by
    cases Value.paired_of_equal h with
    | arr hitems => exact parseEach_concur items _ hitems
  | .null, w, h | .bool _, w, h | .num _, w, h | .str _, w, h | .obj _, w, h => by
    cases Value.paired_of_equal h
    exact .fault _ _

theorem parseEach_concur : ∀ as bs : List Value, Value.equalItems as bs = true →
    Concur (List.Forall₂ Same) (parseEach as) (parseEach bs)
  | [], bs, h => by
    rw [Value.equalItems_nil h]
    exact .ok .nil
  | v :: as, bs, h => by
    obtain ⟨w, bs', rfl, hw, hbs⟩ := Value.equalItems_cons h
    rw [parseEach, parseEach]
    refine (parse_concur v w hw).bind fun first first' hfirst => ?_
    refine (parseEach_concur as bs' hbs).bind fun rest rest' hrest => ?_
    exact .ok (.cons hfirst hrest)

end

theorem constraintDepth_eq {a b : Constraint} (h : a.Same b) :
    constraintDepth a = constraintDepth b := by
  cases h with
  | operator op param => exact Value.depth_eq _ _ param
  | subKey key param => exact Value.depth_eq _ _ param

theorem testDepth_eq {t u : FieldTest} (h : t.Same u) : testDepth t = testDepth u := by
  cases h with
  | equals param => exact Value.depth_eq _ _ param
  | @constraints as bs each =>
    have hdepths : as.map constraintDepth = bs.map constraintDepth := by
      induction each with
      | nil => rfl
      | cons hsame _ ih => rw [List.map_cons, List.map_cons, constraintDepth_eq hsame, ih]
    rw [testDepth, testDepth, hdepths]

mutual

theorem depth_eq : ∀ a b : Clause, a.Same b → a.depth = b.depth
  | .and parts, _, .and each | .or parts, _, .or each => depthOf_eq parts _ each
  | .record _ _, _, .record _ param => Value.depth_eq _ _ param
  | .field _ _, _, .field _ test => testDepth_eq test

theorem depthOf_eq : ∀ as bs : List Clause, List.Forall₂ Same as bs → depthOf as = depthOf bs
  | [], _, .nil => rfl
  | a :: as, _, .cons hab each => by rw [depthOf, depthOf, depth_eq a _ hab, depthOf_eq as _ each]

end

end Clause

namespace Contents

/-- Two stores list the same ids, and under each id they hold equal records. -/
structure SameValues (c c' : Contents) : Prop where
  ids : ∀ className, (c.collection className).ids = (c'.collection className).ids
  records : ∀ className objectId stored stored', c.fetch className objectId = some stored →
    c'.fetch className objectId = some stored' → (Value.obj stored).equal (.obj stored') = true

/-- The first list holds what one store has under some ids of a class, and the second what the other
has there. -/
def Counterparts (c c' : Contents) (className : String) (found found' : List Record) : Prop :=
  ∃ ids : List String, ids.Sublist (c.collection className).ids ∧
    found.map some = ids.map (c.fetch className) ∧
    found'.map some = ids.map (c'.fetch className)

end Contents

/-- A search in one store and a search in the other find counterparts, for clauses read from equal
values. -/
def Find.Concurs (c c' : Contents) (find find' : Find) : Prop :=
  ∀ className clause clause', clause.Same clause' →
    Concur (c.Counterparts c' className) (find className clause) (find' className clause')

section SideBySide

variable {c c' : Contents} {find find' : Find} {field field' : Option Value} {p q : Value}
  {op : Operator}

theorem Contents.SameValues.fetch_cases (h : c.SameValues c') (className objectId : String) :
    c.fetch className objectId = none ∧ c'.fetch className objectId = none ∨
    ∃ stored stored', c.fetch className objectId = some stored ∧
      c'.fetch className objectId = some stored' ∧
      Value.equalFields stored stored' = true := by
  rcases fetch_cases_of_ids_eq (h.ids className) objectId with hnone | ⟨stored, stored', hf, hf'⟩
  · exact .inl hnone
  · exact .inr ⟨stored, stored', hf, hf', h.records className objectId stored stored' hf hf'⟩

theorem Contents.Counterparts.any_eq (h : c.SameValues c') {className : String}
    {found found' : List Record} (hc : c.Counterparts c' className found found')
    {test test' : Record → Bool}
    (ht : ∀ record record', Value.equalFields record record' = true → test record = test' record') :
    found.any test = found'.any test' := by
  obtain ⟨ids, -, hfound, hfound'⟩ := hc
  have hasked : (fun id => (c.fetch className id).any test) =
      fun id => (c'.fetch className id).any test' := by
    funext id
    rcases h.fetch_cases className id with ⟨hf, hf'⟩ | ⟨stored, stored', hf, hf', hequal⟩
    · rw [hf, hf']
      rfl
    · rw [hf, hf']
      exact ht stored stored' hequal
  have lifted (records : List Record) (ask : Record → Bool) :
      records.any ask = (records.map some).any fun record => record.any ask := by
    rw [List.any_map]
    rfl
  rw [lifted, lifted, hfound, hfound', List.any_map, List.any_map]
  exact congrArg ids.any hasked

theorem subQuery_concur (hfind : Find.Concurs c c' find find') (h : p.equal q = true) :
    Concur (fun found found' => ∃ className,
      c.Counterparts c' className found found') (subQuery find op p) (subQuery find' op q) := by
  have hfilter : ((p.field? "where").getD .null).equal ((q.field? "where").getD .null) = true := by
    rcases (Value.field?_fieldsEqual h "where").cases with ⟨hp, hq⟩ | ⟨v, w, hp, hq, hequal⟩
    · rw [hp, hq]
      rfl
    · rw [hp, hq]
      exact hequal
  unfold subQuery
  rw [Value.textField?_eq h]
  split
  · exact .fault _ _
  · rename_i className _
    refine (Clause.parse_concur _ _ hfilter).bind fun clause clause' hsame => ?_
    exact (hfind className clause clause' hsame).mono fun _ _ hc => ⟨className, hc⟩

theorem selected_sameVerdict (h : c.SameValues c') (hfind : Find.Concurs c c' find find')
    (hf : FieldsEqual field field') (hp : p.equal q = true) :
    SameVerdict (selected find op field p) (selected find' op field' q) := by
  unfold selected
  rw [Value.textField?_eq hp]
  cases q.textField? "key" with
  | none => exact .fault _ _
  | some key =>
    rcases (Value.field?_fieldsEqual hp "query").cases with
      ⟨hnone, hnone'⟩ | ⟨query, query', hsome, hsome', hquery⟩
    · rw [hnone, hnone']
      exact .fault _ _
    · rw [hsome, hsome']
      refine (subQuery_concur hfind hquery).bind fun found found' hfound => ?_
      obtain ⟨className, hc⟩ := hfound
      exact .ok (hc.any_eq h fun _ _ hr => (Value.get?_fieldsEqual hr key).fieldEquals_eq hf)

theorem pointsInto_sameVerdict (h : c.SameValues c') (hfind : Find.Concurs c c' find find')
    (hf : FieldsEqual field field') (hp : p.equal q = true) :
    SameVerdict (pointsInto find op field p) (pointsInto find' op field' q) := by
  unfold pointsInto
  rw [hf.objectId?_eq]
  split
  · exact .ok rfl
  · refine (subQuery_concur hfind hp).bind fun found found' hfound => ?_
    obtain ⟨className, hc⟩ := hfound
    exact .ok (hc.any_eq h fun _ _ hr => by rw [(Value.get?_fieldsEqual hr "objectId").asText?_eq])

theorem pointers_relationItems_eq (h : c.SameValues c') (owner : Pointer) (key : String) :
    (relationItems c owner key).filterMap Pointer.ofValue? =
      (relationItems c' owner key).filterMap Pointer.ofValue? := by
  have hitems :
      Value.equalItems (relationItems c owner key) (relationItems c' owner key) = true := by
    unfold relationItems
    rcases h.fetch_cases owner.className owner.objectId with
      ⟨hf, hf'⟩ | ⟨stored, stored', hf, hf', hequal⟩
    · rw [hf, hf']
      rfl
    · rw [hf, hf', Option.bind_some, Option.bind_some]
      rcases (Value.get?_fieldsEqual hequal key).cases with ⟨hk, hk'⟩ | ⟨v, w, hk, hk', hvw⟩
      · rw [hk, hk']
        rfl
      · rw [hk, hk']
        exact Value.equalItems_asItems hvw
  have hpointers := Value.map_eq_of_equalItems (fun _ _ => Value.ofValue?_eq) hitems
  have hid (items : List Value) :
      items.filterMap Pointer.ofValue? = (items.map Pointer.ofValue?).filterMap id := by
    rw [List.filterMap_map]
    rfl
  rw [hid, hid, hpointers]

theorem related_sameVerdict (h : c.SameValues c') (hp : p.equal q = true)
    (subject : Option Pointer) :
    SameVerdict (related c p subject) (related c' q subject) := by
  unfold related
  rw [(Value.field?_fieldsEqual hp "object").pointer?_eq, Value.textField?_eq hp]
  split
  · exact .fault _ _
  · exact .fault _ _
  · rename_i owner key _ _
    exact .ok (by rw [pointers_relationItems_eq h])

theorem matchesPattern_sameVerdict (hf : FieldsEqual field field') (hp : p.equal q = true)
    (options : Option String) :
    SameVerdict (matchesPattern field p options) (matchesPattern field' q options) := by
  cases Value.paired_of_equal hp with
  | str pattern =>
    have answered (text : String) :
        SameVerdict (matchesPattern (some (.str text)) (.str pattern) options)
        (matchesPattern (some (.str text)) (.str pattern) options) := by
      simp only [matchesPattern]
      split
      · exact .ok rfl
      · exact .fault _ _
    cases hf with
    | none => exact .ok rfl
    | some hequal =>
      cases Value.paired_of_equal hequal with
      | str text => exact answered text
      | _ => exact .ok rfl
  | _ => exact .fault _ _

theorem map_fieldEquals_eq (hf : FieldsEqual field field') (hp : p.equal q = true) :
    p.asItems.map (fun item => fieldEquals field (some item)) =
      q.asItems.map fun item => fieldEquals field' (some item) :=
  Value.map_eq_of_equalItems (fun _ _ h => hf.fieldEquals_eq (.some h))
    (Value.equalItems_asItems hp)

theorem equalsSome_eq (hf : FieldsEqual field field') (hp : p.equal q = true) :
    equalsSome field p = equalsSome field' q := by
  have hany := congrArg (List.any · id) (map_fieldEquals_eq hf hp)
  simp only [List.any_map, Function.comp_def, id] at hany
  exact hany

theorem equalsAll_eq (hf : FieldsEqual field field') (hp : p.equal q = true) :
    p.asItems.all (fun item => fieldEquals field (some item)) =
      q.asItems.all fun item => fieldEquals field' (some item) := by
  have hall := congrArg (List.all · id) (map_fieldEquals_eq hf hp)
  simp only [List.all_map, Function.comp_def, id] at hall
  exact hall

theorem Operator.holds_sameVerdict (h : c.SameValues c') (hfind : Find.Concurs c c' find find')
    (hf : FieldsEqual field field') (hp : p.equal q = true) (options : Option String) :
    SameVerdict (op.holds c find field p options) (op.holds c' find' field' q options) := by
  have hsome : FieldsEqual (some p) (some q) := .some hp
  cases op with
  | present => exact .ok (by rw [hf.isTruthy_eq, Value.isTruthy_eq hp])
  | oneOf => exact .ok (equalsSome_eq hf hp)
  | noneOf => exact .ok (by rw [equalsSome_eq hf hp])
  | eq => exact .ok (hf.fieldEquals_eq hsome)
  | ne => exact .ok (by rw [hf.fieldEquals_eq hsome])
  | lt | lte | gt | gte => exact .ok (by rw [hf.compareField?_eq hp])
  | regex => exact matchesPattern_sameVerdict hf hp options
  | options => exact .ok rfl
  | select => exact selected_sameVerdict h hfind hf hp
  | dontSelect => exact (selected_sameVerdict h hfind hf hp).map fun _ _ hsame => by rw [hsame]
  | inQuery => exact pointsInto_sameVerdict h hfind hf hp
  | notInQuery => exact (pointsInto_sameVerdict h hfind hf hp).map fun _ _ hsame => by rw [hsame]
  | all =>
    have hall := equalsAll_eq hf hp
    cases hf with
    | none => exact .ok rfl
    | some hequal =>
      cases Value.paired_of_equal hequal with
      | arr items => exact .ok hall
      | _ => exact .ok rfl
  | relatedTo =>
    unfold holds
    rw [hf.pointer?_eq]
    exact related_sameVerdict h hp _

theorem optionsOf_eq {as bs : List Constraint} (h : List.Forall₂ Constraint.Same as bs) :
    optionsOf as = optionsOf bs := by
  induction h with
  | nil => rfl
  | cons hsame _ ih =>
    simp only [optionsOf] at ih ⊢
    rw [List.findSome?_cons, List.findSome?_cons, ih]
    cases hsame with
    | subKey key param => rfl
    | operator op param =>
      cases op with
      | options => cases Value.paired_of_equal param <;> rfl
      | _ => rfl

theorem Constraint.holds_sameVerdict (h : c.SameValues c') (hfind : Find.Concurs c c' find find')
    (hf : FieldsEqual field field') (options : Option String) (a b : Constraint)
    (hsame : a.Same b) :
    SameVerdict (a.holds c find field options) (b.holds c' find' field' options) := by
  cases hsame with
  | operator op param => exact Operator.holds_sameVerdict h hfind hf param options
  | subKey key param => exact .ok ((hf.bind_field? key).fieldEquals_eq (.some param))

theorem FieldTest.holds_sameVerdict (h : c.SameValues c') (hfind : Find.Concurs c c' find find')
    (hf : FieldsEqual field field') {t u : FieldTest} (hsame : t.Same u) :
    SameVerdict (t.holds c find field) (u.holds c' find' field') := by
  cases hsame with
  | equals param => exact .ok (hf.fieldEquals_eq (.some param))
  | constraints each =>
    rw [FieldTest.holds, FieldTest.holds, optionsOf_eq each]
    exact allHold_sameVerdict (Constraint.holds_sameVerdict h hfind hf _) each

theorem resolve_rel {record record' : Record} (h : Value.equalFields record record' = true)
    (parents : List String) (key : String) :
    Option.Rel FieldsEqual (resolve record parents key) (resolve record' parents key) := by
  induction parents generalizing record record' with
  | nil => exact .some (Value.get?_fieldsEqual h key)
  | cons parent parents ih =>
    have hfield := Value.get?_fieldsEqual h parent
    have hstop : Option.Rel FieldsEqual
        (if isTruthy (KeyMap.get? record parent) && parents.isEmpty then some none else none)
        (if isTruthy (KeyMap.get? record' parent) && parents.isEmpty then some none else none) := by
      rw [hfield.isTruthy_eq]
      split
      · exact .some .none
      · exact .none
    rw [resolve, resolve]
    generalize KeyMap.get? record parent = held,
      KeyMap.get? record' parent = held' at hfield hstop ⊢
    cases hfield with
    | none => exact hstop
    | some hequal =>
      cases Value.paired_of_equal hequal with
      | obj fields => exact ih fields
      | _ => exact hstop

namespace Clause

mutual

/-- The induction is on the clause. What answers the sub-queries of the two sides is taken as
given. -/
theorem holds_sameVerdict (h : c.SameValues c') (hfind : Find.Concurs c c' find find')
    {className : String} {record record' : Record} (hr : Value.equalFields record record' = true) :
    ∀ a b : Clause, a.Same b →
      SameVerdict (a.holds c find className record) (b.holds c' find' className record')
  | .and parts, _, .and each => holdsEach_sameVerdict h hfind hr parts _ each
  | .or parts, _, .or each => holdsAny_sameVerdict h hfind hr parts _ each
  | .record op p, _, .record _ param => by
    have hwhole : FieldsEqual (some (.obj record)) (some (.obj record')) := .some hr
    have hop :
        SameVerdict (op.holds c find (some (.obj record)) p none)
          (op.holds c' find' (some (.obj record')) _ none) :=
      Operator.holds_sameVerdict h hfind hwhole param none
    cases op with
    | relatedTo =>
      rw [Clause.holds, Clause.holds, memberPointer, memberPointer,
        (Value.get?_fieldsEqual hr "objectId").asText?_eq]
      exact related_sameVerdict h param _
    | _ => exact hop
  | .field path t, _, .field _ test => by
    have hfield := resolve_rel hr path.parents path.key
    rw [Clause.holds, Clause.holds]
    generalize resolve record path.parents path.key = held,
      resolve record' path.parents path.key = held' at hfield ⊢
    cases hfield with
    | none => exact .ok rfl
    | some hf => exact FieldTest.holds_sameVerdict h hfind hf test

theorem holdsEach_sameVerdict (h : c.SameValues c') (hfind : Find.Concurs c c' find find')
    {className : String} {record record' : Record} (hr : Value.equalFields record record' = true) :
    ∀ as bs : List Clause, List.Forall₂ Same as bs →
      SameVerdict (holdsEach c find className record as) (holdsEach c' find' className record' bs)
  | [], _, .nil => .ok rfl
  | a :: as, _, .cons hab each => by
    rw [holdsEach, holdsEach]
    refine (holds_sameVerdict h hfind hr a _ hab).bind fun verdict verdict' hsame => ?_
    subst hsame
    split
    · exact holdsEach_sameVerdict h hfind hr as _ each
    · exact .ok rfl

theorem holdsAny_sameVerdict (h : c.SameValues c') (hfind : Find.Concurs c c' find find')
    {className : String} {record record' : Record} (hr : Value.equalFields record record' = true) :
    ∀ as bs : List Clause, List.Forall₂ Same as bs →
      SameVerdict (holdsAny c find className record as) (holdsAny c' find' className record' bs)
  | [], _, .nil => .ok rfl
  | a :: as, _, .cons hab each => by
    rw [holdsAny, holdsAny]
    refine (holds_sameVerdict h hfind hr a _ hab).bind fun verdict verdict' hsame => ?_
    subst hsame
    split
    · exact .ok rfl
    · exact holdsAny_sameVerdict h hfind hr as _ each

end

end Clause

theorem select_counterparts (h : c.SameValues c') {className : String}
    {test test' : Record → Except Fault Bool}
    (ht : ∀ record record', Value.equalFields record record' = true →
      SameVerdict (test record) (test' record')) :
    ∀ {ids : List String} {records records' : List Record},
      records.map some = ids.map (c.fetch className) →
      records'.map some = ids.map (c'.fetch className) →
      Concur (fun found found' => ∃ kept : List String,
        kept.Sublist ids ∧ found.map some = kept.map (c.fetch className) ∧
        found'.map some = kept.map (c'.fetch className)) (select test records)
          (select test' records') := by
  intro ids
  induction ids with
  | nil =>
    intro records records' hr hr'
    obtain rfl : records = [] := List.map_eq_nil_iff.mp hr
    obtain rfl : records' = [] := List.map_eq_nil_iff.mp hr'
    exact .ok ⟨[], .slnil, rfl, rfl⟩
  | cons id ids ih =>
    intro records records' hr hr'
    obtain ⟨record, rest, rfl, hrecord, hrest⟩ := List.map_eq_cons_iff.mp hr
    obtain ⟨record', rest', rfl, hrecord', hrest'⟩ := List.map_eq_cons_iff.mp hr'
    have hequal : Value.equalFields record record' = true :=
      h.records className id record record' hrecord.symm hrecord'.symm
    rw [select, select]
    refine (ht record record' hequal).bind fun keep keep' hsame => ?_
    refine (ih hrest hrest').bind fun found found' hfound => ?_
    subst hsame
    obtain ⟨kept, hsub, hkept, hkept'⟩ := hfound
    cases keep with
    | false => exact .ok ⟨kept, hsub.cons id, hkept, hkept'⟩
    | true =>
      refine .ok ⟨id :: kept, hsub.cons_cons id, ?_, ?_⟩
      · rw [if_pos rfl, List.map_cons, List.map_cons, hkept, hrecord]
      · rw [if_pos rfl, List.map_cons, List.map_cons, hkept', hrecord']

theorem Contents.SameValues.inner_concurs (h : c.SameValues c') (n : Nat) :
    Find.Concurs c c' (inner c n) (inner c' n) := by
  induction n with
  | zero => exact fun className _ _ _ => .ok ⟨[], List.nil_sublist _, rfl, rfl⟩
  | succ n ih =>
    intro className clause clause' hsame
    rw [inner, inner, matchingWithin_eq, matchingWithin_eq]
    refine select_counterparts h (fun record record' hr =>
      Clause.holds_sameVerdict h ih hr clause clause' hsame) (Collection.map_some_records _) ?_
    rw [h.ids]
    exact Collection.map_some_records _

theorem Contents.SameValues.matching_concur (h : c.SameValues c') (className : String)
    {clause clause' : Clause} (hsame : clause.Same clause') :
    Concur (c.Counterparts c' className) (matching c className clause)
      (matching c' className clause') := by
  rw [matching, matching, Clause.depth_eq clause clause' hsame]
  exact h.inner_concurs (clause'.depth + 1) className clause clause' hsame

end SideBySide

namespace Contents

def search (c : Contents) (className : String) (filter : Value) : Except Fault (List Record) := do
  let clause ← Clause.parse filter
  matching c className clause

/--
How numbers are written shows in no search. In two stores with the same ids and equal records, the
searches of a class for two where clauses that are equal values find the records under the same ids
in the same order, or both fail as queries do.
-/
theorem search_concurs {c c' : Contents} (h : c.SameValues c') {filter filter' : Value}
    (hf : filter.equal filter' = true) (className : String) :
    Concur (c.Counterparts c' className) (c.search className filter)
      (c'.search className filter') :=
  (Clause.parse_concur filter filter' hf).bind fun _ _ hsame => h.matching_concur className hsame

def tallied (count : Number) : Contents :=
  ({} : Contents).insert "Item" "1" [("counts", .arr [.num count]), ("objectId", .str "1")]

theorem sameValues_tallied {m n : Number} (h : m.sameValue n = true) :
    (tallied m).SameValues (tallied n) where
  ids className := by
    simp only [tallied, insert, collection_setCollection]
    split <;> rfl
  records className objectId stored stored' hf hf' := by
    simp only [tallied, fetch_insert] at hf hf'
    split at hf
    · rename_i hitem
      rw [if_pos hitem] at hf'
      rw [← Option.some.inj hf, ← Option.some.inj hf']
      simp [Value.equal, Value.equalFields, Value.equalItems, h]
    · cases hf

def counting (count : Number) : Value :=
  .obj [("counts",
    .obj [("$in", .arr [.num count]),
      ("$select", .obj [("key", .str "counts"),
        ("query", .obj [("className", .str "Item"), ("where", .obj [("counts", .num count)])])])])]

def thirty : Number := .int 30 (by decide)

theorem search_concurs_tallied :
    ((tallied thirty).search "Item" (counting (.double thirty.toDouble))).toOption.map List.length =
      some 1 ∧
      Concur ((tallied thirty).Counterparts (tallied (.double thirty.toDouble)) "Item")
        ((tallied thirty).search "Item" (counting (.double thirty.toDouble)))
        ((tallied (.double thirty.toDouble)).search "Item" (counting thirty)) :=
  ⟨by decide +kernel,
    search_concurs (sameValues_tallied (by decide +kernel)) (by decide +kernel) "Item"⟩

end Contents

end DocumentStore
