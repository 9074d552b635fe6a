import DocumentStore.Proofs.Applying
import DocumentStore.Proofs.Pointing
import Mathlib.Data.List.Chain

/-!
Sub-queries inside each other. However classes refer to each other, a sub-query is a part of the
parameter that asks for it, so no more of them are ever active at one time than the clause nests
deep, and running one always comes to an end.
-/

namespace DocumentStore

namespace Value

inductive Within : Value → Value → Prop where
  | item {v : Value} {items : List Value} (h : v ∈ items) : Within v (.arr items)
  | field {v : Value} {fields : Record} {name : String} (h : (name, v) ∈ fields) :
      Within v (.obj fields)
  | trans {u v w : Value} (huv : Within u v) (hvw : Within v w) : Within u w

variable {v w : Value} {name : String}

theorem within_of_field? (h : w.field? name = some v) : v.Within w := by
  cases w with
  | obj fields => exact .field (KeyMap.mem_of_get? h)
  | _ => cases h

theorem depth_le_depthItems {items : List Value} (h : v ∈ items) : v.depth ≤ depthItems items := by
  induction items with
  | nil => cases h
  | cons item items ih =>
    rw [depthItems]
    rcases List.mem_cons.mp h with rfl | h
    · exact Nat.le_max_left _ _
    · exact Nat.le_trans (ih h) (Nat.le_max_right _ _)

theorem Within.depth_lt (h : v.Within w) : v.depth < w.depth := by
  induction h with
  | item h => exact Nat.lt_succ_of_le (depth_le_depthItems h)
  | field h => exact Nat.lt_succ_of_le (depth_le_depthFields h)
  | trans _ _ huv hvw => exact Nat.lt_trans huv hvw

end Value

namespace Application

variable {a : Application} {target : String} {sub : Clause}

/-- A clause is read from a value inside the parameter, or it matches all, for want of a clause in
the description. -/
def Supplies (a : Application) (sub : Clause) : Prop :=
  (∃ v, v.Within a.param ∧ Clause.parse v = .ok sub) ∨
    sub = .matchAll ∧ ∃ query, a.query? = some query ∧ query.field? "where" = none

theorem eq_or_within_of_query? {query : Value} (h : a.query? = some query) :
    query = a.param ∨ query.Within a.param := by
  have hselected
      (h : ((a.param.textField? "key").bind fun _ => a.param.field? "query") = some query) :
      query.Within a.param := by
    obtain ⟨-, -, hquery⟩ := Option.bind_eq_some_iff.mp h
    exact Value.within_of_field? hquery
  have hpoints (h : ((a.field.bind Value.objectId?).map fun _ => a.param) = some query) :
      query = a.param := by
    obtain ⟨-, -, hquery⟩ := Option.map_eq_some_iff.mp h
    exact hquery.symm
  unfold query? at h
  split at h
  · exact .inr (hselected h)
  · exact .inr (hselected h)
  · exact .inl (hpoints h)
  · exact .inl (hpoints h)
  · cases h

theorem Runs.supplies (h : a.Runs target sub) : a.Supplies sub := by
  obtain ⟨query, hquery, -, hsub⟩ := h
  cases hwhere : query.field? "where" with
  | none =>
    rw [describedClause, hwhere] at hsub
    exact .inr ⟨(Except.ok.inj hsub).symm, query, hquery, hwhere⟩
  | some v =>
    rw [describedClause, hwhere] at hsub
    refine .inl ⟨v, ?_, hsub⟩
    rcases eq_or_within_of_query? hquery with rfl | hwithin
    · exact Value.within_of_field? hwhere
    · exact .trans (Value.within_of_field? hwhere) hwithin

theorem Runs.depth_lt (h : a.Runs target sub) : sub.depth < a.param.depth := by
  rcases h.supplies with ⟨v, hwithin, hsub⟩ | ⟨rfl, query, hquery, -⟩
  · exact Nat.lt_of_le_of_lt (Clause.depth_parse_le v sub hsub) hwithin.depth_lt
  · -- The description has a class name, so it is an object and nests at least one deep.
    obtain ⟨query', hquery', htarget, -⟩ := h
    obtain ⟨text, htext, -⟩ := Option.bind_eq_some_iff.mp htarget
    have hdescribed : text.depth < query'.depth := Value.depth_lt_of_field? htext
    rcases eq_or_within_of_query? hquery' with rfl | hwithin
    · exact Nat.lt_of_le_of_lt (Nat.zero_le _) hdescribed
    · exact Nat.lt_of_le_of_lt (Nat.zero_le _) hwithin.depth_lt

end Application

theorem Clause.depth_le_depthOf {part : Clause} {parts : List Clause} (h : part ∈ parts) :
    part.depth ≤ depthOf parts := by
  induction parts with
  | nil => cases h
  | cons first parts ih =>
    rw [depthOf]
    rcases List.mem_cons.mp h with rfl | h
    · exact Nat.le_max_left _ _
    · exact Nat.le_trans (ih h) (Nat.le_max_right _ _)

theorem Clause.Applies.depth_le {contents : Contents} {find : Find} {className : String}
    {record : Record} {clause : Clause} {a : Application}
    (h : clause.Applies contents find className record a) : a.param.depth ≤ clause.depth := by
  induction h with
  | and reached _ ih => exact Nat.le_trans ih (depth_le_depthOf reached.mem)
  | or reached _ ih => exact Nat.le_trans ih (depth_le_depthOf reached.mem)
  | record op param => exact Nat.le_refl _
  | field _ reached => exact constraintDepth_le_of_mem reached.mem

namespace Contents

variable {c : Contents} {className : String} {clause : Clause}

def Calls (c : Contents) (query sub : String × Clause) : Prop :=
  ∃ a, c.Applies (matching c) query.1 query.2 a ∧ a.Runs sub.1 sub.2

theorem depth_lt_of_applies {find : Find} {a : Application} {target : String} {sub : Clause}
    (ha : c.Applies find className clause a) (hsub : a.Runs target sub) :
    sub.depth < clause.depth := by
  obtain ⟨record, -, happlied⟩ := ha
  exact Nat.lt_of_lt_of_le hsub.depth_lt happlied.depth_le

theorem length_le_of_calls {query : String × Clause} {chain : List (String × Clause)}
    (h : List.IsChain c.Calls (query :: chain)) : chain.length ≤ query.2.depth := by
  induction chain generalizing query with
  | nil => exact Nat.zero_le _
  | cons sub chain ih =>
    obtain ⟨⟨a, ha, hsub⟩, hchain⟩ := List.isChain_cons_cons.mp h
    exact Nat.succ_le_of_lt (Nat.lt_of_le_of_lt (ih hchain) (depth_lt_of_applies ha hsub))

/--
What running a clause on a class comes to, where each sub-query that it runs comes to something in
the same way. There is no bound on how many are inside each other, so what does not end comes to
nothing.
-/
inductive Finds (c : Contents) : String → Clause → Except Fault (List Record) → Prop where
  | intro {className : String} {clause : Clause} (find : Find)
      (answered : ∀ a, c.Applies find className clause a → ∀ target sub, a.Runs target sub →
        Finds c target sub (find target sub)) :
      Finds c className clause (select (clause.holds c find className) (c.records className))

theorem Finds.eq {outcome : Except Fault (List Record)} (h : c.Finds className clause outcome) :
    outcome = matching c className clause := by
  induction h with
  | intro find _ ih =>
    rw [matching_eq]
    exact select_congr ih

/-- A property that a clause on a class has if all sub-queries have it that running it runs. The
induction is on the depth. -/
theorem forall_of_subQueries {P : String → Clause → Prop}
    (step : ∀ className clause, (∀ a, c.Applies (matching c) className clause a → ∀ target sub,
      a.Runs target sub → P target sub) → P className clause)
    (className : String) (clause : Clause) : P className clause := by
  induction hdepth : clause.depth using Nat.strongRecOn generalizing className clause with
  | _ depth ih =>
    exact step className clause fun a ha target sub hsub =>
      ih sub.depth (hdepth ▸ depth_lt_of_applies ha hsub) target sub rfl

theorem finds_matching (c : Contents) (className : String) (clause : Clause) :
    c.Finds className clause (matching c className clause) := by
  induction className, clause using forall_of_subQueries (c := c) with
  | step className clause ih =>
    rw [matching_eq]
    exact .intro (matching c) ih

theorem finds_iff {outcome : Except Fault (List Record)} :
    c.Finds className clause outcome ↔ outcome = matching c className clause :=
  ⟨Finds.eq, fun h => h ▸ finds_matching c className clause⟩

theorem matching_ok_or_query (c : Contents) (className : String) (clause : Clause) :
    (∃ found, matching c className clause = .ok found) ∨ ∃ reason,
      matching c className clause = .error (.query reason) := by
  induction className, clause using forall_of_subQueries (c := c) with
  | step className clause ih =>
    cases hm : matching c className clause with
    | ok found => exact .inl ⟨found, rfl⟩
    | error fault =>
      obtain ⟨a, ha, hfault⟩ := matching_eq_error_iff.mp hm
      rcases Application.outcome_eq_error_iff.mp hfault with
        ⟨reason, -, rfl⟩ | ⟨target, sub, hsub, hfound⟩
      · exact .inr ⟨reason, rfl⟩
      · rcases ih a ha target sub hsub with ⟨found, hok⟩ | ⟨reason, herror⟩
        · cases hok.symm.trans hfound
        · exact .inr ⟨reason, congrArg Except.error (Except.error.inj (hfound.symm.trans herror))⟩

/--
Whatever the records of all classes refer to, running a where clause ends, with records or with what
makes the clause invalid: it comes to one outcome, although nothing bounds the sub-queries inside
each other. Each sub-query is read from a value inside the parameter that asks for it, or it matches
all, where that has no clause; so there are never more of them active at one time than the clause
nests deep.
-/
theorem sub_queries_end (c : Contents) (className : String) (w : Value) :
    ((∃ found, c.find className w = .ok found) ∨
      ∃ reason, c.find className w = .error (.query reason)) ∧
    (∀ clause, Clause.parse w = .ok clause →
      (∀ outcome, c.Finds className clause outcome ↔ outcome = c.find className w) ∧
      (∀ chain, List.IsChain c.Calls ((className, clause) :: chain) → chain.length ≤ clause.depth) ∧
      clause.depth ≤ w.depth) ∧
    ∀ (a : Application) target sub, a.Runs target sub → a.Supplies sub := by
  refine ⟨?_, fun clause hclause => ⟨fun outcome => ?_, fun chain => length_le_of_calls, ?_⟩,
    fun a target sub h => h.supplies⟩
  · cases hclause : Clause.parse w with
    | error fault =>
      obtain ⟨reason, rfl⟩ := Clause.parse_eq_error hclause
      rw [find, hclause]
      exact .inr ⟨reason, rfl⟩
    | ok clause =>
      rw [find, hclause]
      exact c.matching_ok_or_query className clause
  · rw [find, hclause]
    exact finds_iff
  · exact Clause.depth_parse_le w clause hclause

def parsedPointing (field target : String) (clause : Value) : Clause :=
  .and [.field ⟨[], field⟩
    (.constraints [.operator .inQuery (.obj [("className", .str target), ("where", clause)])])]

theorem calls_of_pointing {field target id : String} {value w : Value} {record : Record}
    {rest : List Record} {sub : Clause} (hrecords : c.records className = record :: rest)
    (hfield : KeyMap.get? record field = some value) (hid : value.objectId? = some id)
    (hsub : Clause.parse w = .ok sub) :
    c.Calls (className, parsedPointing field target w) (target, sub) := by
  refine ⟨_, applies_single hrecords field .inQuery _,
    .obj [("className", .str target), ("where", w)], ?_, rfl, hsub⟩
  simp [Application.query?, hfield, hid]

def facing : Contents :=
  (({} : Contents).insert "Left" "1" [("other", Pointer.toValue ⟨"Right", "1"⟩)]).insert "Right" "1"
    [("other", Pointer.toValue ⟨"Left", "1"⟩)]

def thereAndBack : Value :=
  pointing .inQuery "other" "Right" (pointing .inQuery "other" "Left" .null)

theorem plainName_other : PlainName "other" := ⟨by decide, by decide⟩

theorem sub_queries_end_facing :
    ∃ clause inner, Clause.parse thereAndBack = .ok clause ∧
      List.IsChain facing.Calls [("Left", clause), ("Right", inner), ("Left", .matchAll)] ∧
      2 ≤ clause.depth ∧
      facing.Finds "Left" clause (facing.find "Left" thereAndBack) ∧
      ((∃ found, facing.find "Left" thereAndBack = .ok found) ∨
        ∃ reason, facing.find "Left" thereAndBack = .error (.query reason)) := by
  have hinner := Clause.parse_pointing plainName_other .inQuery "Left" .null
  have houter :=
    Clause.parse_pointing plainName_other .inQuery "Right" (pointing .inQuery "other" "Left" .null)
  obtain ⟨houtcome, hends, -⟩ := facing.sub_queries_end "Left" thereAndBack
  obtain ⟨hfinds, hchains, -⟩ := hends _ houter
  have hchain :
      List.IsChain facing.Calls [("Left",
        parsedPointing "other" "Right" (pointing .inQuery "other" "Left" .null)),
      ("Right", parsedPointing "other" "Left" .null), ("Left", .matchAll)] :=
    List.isChain_cons_cons.mpr ⟨calls_of_pointing rfl rfl rfl hinner,
      List.isChain_cons_cons.mpr ⟨calls_of_pointing rfl rfl rfl rfl, List.isChain_singleton _⟩⟩
  exact ⟨_, _, houter, hchain, hchains _ hchain, (hfinds _).mpr rfl, houtcome⟩

end Contents

end DocumentStore
