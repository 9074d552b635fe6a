import DocumentStore.Proofs.Contents
import DocumentStore.Query.Matching

/-!
Sub-queries. A clause reaches only clauses that nest less deep than itself, so the bound on
sub-queries inside each other cuts nothing off: the matches of a clause are the records that pass
it, each sub-query answered by its own matches.
-/

namespace DocumentStore

namespace Value

theorem depth_le_depthFields {entry : String × Value} {fields : List (String × Value)}
    (h : entry ∈ fields) :
    entry.2.depth ≤ depthFields fields := by
  induction fields with
  | nil => cases h
  | cons e fields ih =>
    rw [depthFields]
    rcases List.mem_cons.mp h with rfl | h
    · exact Nat.le_max_left _ _
    · exact Nat.le_trans (ih h) (Nat.le_max_right _ _)

theorem depth_lt_of_field? {v w : Value} {name : String} (h : v.field? name = some w) :
    w.depth < v.depth := by
  cases v with
  | obj fields =>
    have hmem : (name, w) ∈ fields := KeyMap.mem_of_get? h
    exact Nat.lt_succ_of_le (depth_le_depthFields hmem)
  | _ => cases h

end Value

namespace Clause

theorem foldl_max_le_iff {bounds : List Nat} {start bound : Nat} :
    bounds.foldl max start ≤ bound ↔ start ≤ bound ∧ ∀ n ∈ bounds, n ≤ bound := by
  induction bounds generalizing start with
  | nil => simp
  | cons n bounds ih => rw [List.foldl_cons, ih, Nat.max_le, List.forall_mem_cons, and_assoc]

theorem constraintDepth_le_of_mem {constraint : Constraint} {list : List Constraint}
    (h : constraint ∈ list) :
    constraintDepth constraint ≤ testDepth (.constraints list) :=
  (foldl_max_le_iff.mp (Nat.le_refl _)).2 _ (List.mem_map_of_mem h)

theorem constraintDepth_ofEntry (entry : String × Value) :
    constraintDepth (Constraint.ofEntry entry) = entry.2.depth := by
  unfold Constraint.ofEntry
  split <;> rfl

theorem testDepth_ofValue_le (v : Value) : testDepth (FieldTest.ofValue v) ≤ v.depth := by
  cases v with
  | obj fields =>
    rw [FieldTest.ofValue]
    split
    · exact Nat.le_refl _
    · refine foldl_max_le_iff.mpr ⟨Nat.zero_le _, fun n hn => ?_⟩
      rw [List.map_map] at hn
      obtain ⟨entry, hentry, rfl⟩ := List.mem_map.mp hn
      rw [Function.comp_apply, constraintDepth_ofEntry]
      exact Nat.le_succ_of_le (Value.depth_le_depthFields hentry)
  | _ => exact Nat.le_refl _

theorem depth_ofEntry_le (entry : String × Value) : depth (ofEntry entry) ≤ entry.2.depth := by
  unfold ofEntry
  split
  · exact Nat.le_refl _
  · exact testDepth_ofValue_le entry.2

theorem depthOf_ofEntry_le (fields : List (String × Value)) :
    depthOf (fields.map ofEntry) ≤ Value.depthFields fields := by
  induction fields with
  | nil => exact Nat.le_refl _
  | cons entry fields ih =>
    rw [List.map_cons, depthOf, Value.depthFields]
    have hentry := depth_ofEntry_le entry
    omega

def listed (key : String) : Value → Except Fault (List Clause)
  | .arr items => parseEach items
  | v => .error (.query (.branchesNotList key v))

theorem branches?_cons (key name : String) (v : Value) (rest : List (String × Value)) :
    branches? key ((name, v) :: rest) =
      if name = key then some (listed key v) else branches? key rest := by
  cases v <;> simp only [branches?, listed]

theorem parse_single {key : String} (hor : key ≠ "$or") (hand : key ≠ "$and") (v : Value) :
    parse (.obj [(key, v)]) = .ok (.and [ofEntry (key, v)]) := by
  rw [parse, branches?_cons, if_neg hor, branches?, branches?_cons, if_neg hand, branches?]
  rfl

theorem holds_and_single (contents : Contents) (find : Find) (className : String) (record : Record)
    (part : Clause) :
    (and [part]).holds contents find className record =
      part.holds contents find className record := by
  rw [holds, holdsEach]
  cases part.holds contents find className record with
  | error fault => rfl
  | ok keep => cases keep <;> rfl

mutual

theorem depth_parse_le :
    ∀ (v : Value) (clause : Clause), parse v = .ok clause → clause.depth ≤ v.depth
  | .null, clause, h => by
    obtain rfl : matchAll = clause := Except.ok.inj h
    exact Nat.le_refl _
  | .obj fields, clause, h => by
    rw [parse] at h
    have combined {key : String} {wrap : List Clause → Clause}
        (hwrap : ∀ parts, (wrap parts).depth = depthOf parts)
        {parts : Except Fault (List Clause)} (hb : branches? key fields = some parts)
        (hp : parts.map wrap = .ok clause) :
        clause.depth ≤ (Value.obj fields).depth := by
      cases parts with
      | error fault => cases hp
      | ok parts =>
        obtain rfl : wrap parts = clause := Except.ok.inj hp
        rw [hwrap]
        exact Nat.le_succ_of_le (depthOf_branches?_le key fields parts hb)
    split at h
    · rename_i parts hb
      exact combined (fun _ => rfl) hb h
    · split at h
      · rename_i parts hb
        exact combined (fun _ => rfl) hb h
      · obtain rfl : Clause.and (fields.map ofEntry) = clause := Except.ok.inj h
        exact Nat.le_succ_of_le (depthOf_ofEntry_le fields)
  | .bool _, _, h | .num _, _, h | .str _, _, h | .arr _, _, h => by cases h

theorem depthOf_branches?_le (key : String) :
    ∀ (fields : List (String × Value)) (parts : List Clause),
    branches? key fields = some (.ok parts) → depthOf parts ≤ Value.depthFields fields
  | [], _, h => by cases h
  | (name, v) :: rest, parts, h => by
    rw [branches?_cons] at h
    rw [Value.depthFields]
    split at h
    · have hlisted := depthOf_listed_le key v parts (Option.some.inj h)
      omega
    · have hrest := depthOf_branches?_le key rest parts h
      omega

theorem depthOf_listed_le (key : String) :
    ∀ (v : Value) (parts : List Clause), listed key v = .ok parts → depthOf parts ≤ v.depth
  | .arr items, parts, h => Nat.le_succ_of_le (depthOf_parseEach_le items parts h)
  | .null, _, h | .bool _, _, h | .num _, _, h | .str _, _, h | .obj _, _, h => by cases h

theorem depthOf_parseEach_le :
    ∀ (items : List Value) (parts : List Clause), parseEach items = .ok parts →
    depthOf parts ≤ Value.depthItems items
  | [], parts, h => by
    obtain rfl : [] = parts := Except.ok.inj h
    exact Nat.le_refl _
  | v :: vs, parts, h => by
    simp only [parseEach, bind_eq_ok_iff] at h
    obtain ⟨first, hfirst, rest, hrest, h⟩ := h
    obtain rfl : first :: rest = parts := Except.ok.inj h
    have hv := depth_parse_le v first hfirst
    have hvs := depthOf_parseEach_le vs rest hrest
    rw [depthOf, Value.depthItems]
    omega

end

end Clause

def Find.AgreeBelow (bound : Nat) (find find' : Find) : Prop :=
  ∀ className clause, clause.depth < bound → find className clause = find' className clause

namespace Find.AgreeBelow

variable {find find' : Find} {bound : Nat}

theorem mono {lower : Nat} (h : AgreeBelow bound find find') (hl : lower ≤ bound) :
    AgreeBelow lower find find' :=
  fun className clause hc => h className clause (Nat.lt_of_lt_of_le hc hl)

theorem subQuery_eq {query : Value} (h : AgreeBelow query.depth find find') (op : Operator) :
    subQuery find op query = subQuery find' op query := by
  unfold subQuery
  split
  · rfl
  · rename_i className hname
    cases hp : Clause.parse ((query.field? "where").getD .null) with
    | error fault => rfl
    | ok clause =>
      have hclause := Clause.depth_parse_le _ clause hp
      have hdepth : ((query.field? "where").getD .null).depth < query.depth := by
        cases hw : query.field? "where" with
        | some w => exact Value.depth_lt_of_field? hw
        | none =>
          -- Only an object has a class name, and an object nests at least one deep.
          obtain ⟨text, htext, -⟩ := Option.bind_eq_some_iff.mp hname
          exact Nat.lt_of_le_of_lt (Nat.zero_le text.depth) (Value.depth_lt_of_field? htext)
      exact h className clause (Nat.lt_of_le_of_lt hclause hdepth)

theorem selected_eq {param : Value} (h : AgreeBelow param.depth find find') (op : Operator)
    (field : Option Value) :
    selected find op field param = selected find' op field param := by
  unfold selected
  split
  · rfl
  · rfl
  · rename_i key query _ hquery
    rw [(h.mono (Nat.le_of_lt (Value.depth_lt_of_field? hquery))).subQuery_eq op]

theorem pointsInto_eq {param : Value} (h : AgreeBelow param.depth find find') (op : Operator)
    (field : Option Value) :
    pointsInto find op field param = pointsInto find' op field param := by
  unfold pointsInto
  rw [h.subQuery_eq op]

theorem operator_eq {param : Value} (h : AgreeBelow param.depth find find') (contents : Contents)
    (op : Operator) (field : Option Value) (options : Option String) :
    op.holds contents find field param options = op.holds contents find' field param options := by
  cases op with
  | select | dontSelect => simp only [Operator.holds, h.selected_eq]
  | inQuery | notInQuery => simp only [Operator.holds, h.pointsInto_eq]
  | _ => rfl

theorem allHold_eq {α : Type} {test test' : α → Except Fault Bool} {list : List α}
    (h : ∀ a ∈ list, test a = test' a) :
    allHold test list = allHold test' list := by
  induction list with
  | nil => rfl
  | cons a list ih =>
    rw [allHold, allHold, h a List.mem_cons_self, ih fun b hb => h b (List.mem_cons_of_mem a hb)]

theorem fieldTest_eq {test : FieldTest} (h : AgreeBelow (Clause.testDepth test) find find')
    (contents : Contents) (field : Option Value) :
    test.holds contents find field = test.holds contents find' field := by
  cases test with
  | equals param => rfl
  | constraints list =>
    refine allHold_eq fun constraint hc => ?_
    have hbelow := h.mono (Clause.constraintDepth_le_of_mem hc)
    cases constraint with
    | operator op param => exact hbelow.operator_eq contents op field _
    | subKey key param => rfl

mutual

theorem clause_eq (contents : Contents) (className : String) (record : Record) : ∀ clause : Clause,
    AgreeBelow clause.depth find find' →
      clause.holds contents find className record = clause.holds contents find' className record
  | .and parts, h => by rw [Clause.holds, Clause.holds, each_eq contents className record parts h]
  | .or parts, h => by rw [Clause.holds, Clause.holds, any_eq contents className record parts h]
  | .record op param, h => by
    have hop := h.operator_eq contents op (some (.obj record)) none
    cases op with
    | relatedTo => rfl
    | _ => exact hop
  | .field path test, h => by
    rw [Clause.holds, Clause.holds]
    split
    · rfl
    · exact h.fieldTest_eq contents _

theorem each_eq (contents : Contents) (className : String) (record : Record) :
    ∀ parts : List Clause, AgreeBelow (Clause.depthOf parts) find find' →
      Clause.holdsEach contents find className record parts =
        Clause.holdsEach contents find' className record parts
  | [], _ => rfl
  | part :: parts, h => by
    rw [Clause.holdsEach, Clause.holdsEach,
      clause_eq contents className record part (h.mono (Nat.le_max_left _ _)),
      each_eq contents className record parts (h.mono (Nat.le_max_right _ _))]

theorem any_eq (contents : Contents) (className : String) (record : Record) : ∀ parts : List Clause,
    AgreeBelow (Clause.depthOf parts) find find' →
      Clause.holdsAny contents find className record parts =
        Clause.holdsAny contents find' className record parts
  | [], _ => rfl
  | part :: parts, h => by
    rw [Clause.holdsAny, Clause.holdsAny,
      clause_eq contents className record part (h.mono (Nat.le_max_left _ _)),
      any_eq contents className record parts (h.mono (Nat.le_max_right _ _))]

end

end Find.AgreeBelow

/-- What answers the sub-queries of a clause that is allowed so many of them inside each other. -/
def inner (contents : Contents) : Nat → Find
  | 0 => fun _ _ => .ok []
  | n + 1 => matchingWithin contents n

theorem matchingWithin_eq (contents : Contents) (n : Nat) (className : String) (clause : Clause) :
    matchingWithin contents n className clause =
      select (clause.holds contents (inner contents n) className) (contents.records className) := by
  cases n <;> rfl

/-- A bound of the depth of a clause is enough for it. The induction is on the bound. -/
theorem matchingWithin_of_depth_le (contents : Contents) {n : Nat} {className : String}
    {clause : Clause} (h : clause.depth ≤ n) :
    matchingWithin contents n className clause = matching contents className clause := by
  induction n using Nat.strongRecOn generalizing className clause with
  | _ n ih =>
    have hagree :
        Find.AgreeBelow clause.depth (inner contents n) (inner contents clause.depth) := by
      intro className' clause' hlt
      obtain ⟨m, rfl⟩ : ∃ m, n = m + 1 := ⟨n - 1, by omega⟩
      obtain ⟨d, hd⟩ : ∃ d, clause.depth = d + 1 := ⟨clause.depth - 1, by omega⟩
      rw [hd, inner, inner, ih m (by omega) (by omega), ih d (by omega) (by omega)]
    have hholds : clause.holds contents (inner contents n) className =
        clause.holds contents (inner contents clause.depth) className :=
      funext fun record => hagree.clause_eq contents className record clause
    rw [matching, matchingWithin_eq, matchingWithin_eq, hholds]

theorem matching_eq (contents : Contents) (className : String) (clause : Clause) :
    matching contents className clause =
      select (clause.holds contents (matching contents) className)
        (contents.records className) := by
  have hagree : Find.AgreeBelow clause.depth (inner contents clause.depth) (matching contents) := by
    intro className' clause' hlt
    obtain ⟨d, hd⟩ : ∃ d, clause.depth = d + 1 := ⟨clause.depth - 1, by omega⟩
    rw [hd, inner]
    exact matchingWithin_of_depth_le contents (by omega)
  have hholds : clause.holds contents (inner contents clause.depth) className =
      clause.holds contents (matching contents) className :=
    funext fun record => hagree.clause_eq contents className record clause
  rw [matching, matchingWithin_eq, hholds]

end DocumentStore
