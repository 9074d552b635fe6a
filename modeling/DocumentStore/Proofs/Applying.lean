import DocumentStore.Proofs.Subqueries

/-!
Operators at work. To test a record by a clause is to apply operators of the clause to it, one after
the other, until the answer is known; only those that are applied can make the test fail, and only
they run sub-queries.
-/

namespace DocumentStore

section Searching

variable {α β : Type} {goesOn : Bool → Bool} {base : β} {join : α → Bool → β → β}
  {test test' : α → Except Fault Bool}
variable {list : List α} {a b : α} {fault : Fault}

/-- Goes along a list for as long as the answers of a test ask for it, and to the first fault at
most. -/
def search (goesOn : Bool → Bool) (base : β) (join : α → Bool → β → β)
    (test : α → Except Fault Bool) :
    List α → Except Fault β
  | [] => .ok base
  | a :: as => do
    let answer ← test a
    if goesOn answer then return join a answer (← search goesOn base join test as)
    else return join a answer base

def Reaches (goesOn : Bool → Bool) (test : α → Except Fault Bool) (list : List α) (a : α) : Prop :=
  ∃ before after, list = before ++ a :: after ∧ ∀ b ∈ before, ∃ answer,
    test b = .ok answer ∧ goesOn answer = true

theorem Reaches.mem (h : Reaches goesOn test list a) : a ∈ list := by
  obtain ⟨before, after, rfl, -⟩ := h
  exact List.mem_append_right before List.mem_cons_self

theorem reaches_head (goesOn : Bool → Bool) (test : α → Except Fault Bool) (a : α) (list : List α) :
    Reaches goesOn test (a :: list) a := ⟨[], list, rfl, nofun⟩

theorem Reaches.tail {answer : Bool} (h : Reaches goesOn test list a) (hb : test b = .ok answer)
    (hgoes : goesOn answer = true) :
    Reaches goesOn test (b :: list) a := by
  obtain ⟨before, after, rfl, hbefore⟩ := h
  exact ⟨b :: before, after, rfl, List.forall_mem_cons.mpr ⟨⟨answer, hb, hgoes⟩, hbefore⟩⟩

theorem reaches_cons (h : Reaches goesOn test (b :: list) a) :
    a = b ∨ Reaches goesOn test list a ∧ ∃ answer, test b = .ok answer ∧ goesOn answer = true := by
  obtain ⟨before, after, hlist, hbefore⟩ := h
  cases before with
  | nil => exact .inl (List.cons.inj hlist).1.symm
  | cons first before =>
    obtain ⟨rfl, rfl⟩ := List.cons.inj hlist
    obtain ⟨hfirst, hbefore⟩ := List.forall_mem_cons.mp hbefore
    exact .inr ⟨⟨before, after, rfl, hbefore⟩, hfirst⟩

theorem search_of_error (list : List α) (h : test a = .error fault) :
    search goesOn base join test (a :: list) = .error fault := by
  rw [search, h]
  rfl

theorem search_of_stop {answer : Bool} (list : List α) (h : test a = .ok answer)
    (hstop : goesOn answer = false) :
    search goesOn base join test (a :: list) = .ok (join a answer base) := by
  rw [search, h]
  show (if goesOn answer then _ else _) = _
  rw [hstop]
  rfl

theorem search_of_goesOn {answer : Bool} (list : List α) (h : test a = .ok answer)
    (hgoes : goesOn answer = true) :
    search goesOn base join test (a :: list) =
      (search goesOn base join test list).map (join a answer) := by
  rw [search, h]
  show (if goesOn answer then _ else _) = _
  rw [hgoes]
  rfl

theorem search_eq_error_iff :
    search goesOn base join test list = .error fault ↔
      ∃ a, Reaches goesOn test list a ∧ test a = .error fault := by
  induction list with
  | nil =>
    constructor
    · exact nofun
    · rintro ⟨a, hreached, -⟩
      cases hreached.mem
  | cons b list ih =>
    cases hb : test b with
    | error other =>
      rw [search_of_error list hb, Except.error.injEq]
      constructor
      · rintro rfl
        exact ⟨b, reaches_head goesOn test b list, hb⟩
      · rintro ⟨a, hreached, ha⟩
        rcases reaches_cons hreached with rfl | ⟨-, answer, hanswer, -⟩
        · exact Except.error.inj (hb.symm.trans ha)
        · cases hb.symm.trans hanswer
    | ok answer =>
      have hrest : (∃ a, Reaches goesOn test (b :: list) a ∧ test a = .error fault) ↔
          goesOn answer = true ∧ ∃ a, Reaches goesOn test list a ∧ test a = .error fault := by
        constructor
        · rintro ⟨a, hreached, ha⟩
          rcases reaches_cons hreached with rfl | ⟨hreached, answer', hanswer, hgoes⟩
          · cases hb.symm.trans ha
          · obtain rfl : answer = answer' := Except.ok.inj (hb.symm.trans hanswer)
            exact ⟨hgoes, a, hreached, ha⟩
        · rintro ⟨hgoes, a, hreached, ha⟩
          exact ⟨a, hreached.tail hb hgoes, ha⟩
      rw [hrest]
      cases hgoes : goesOn answer with
      | false =>
        rw [search_of_stop list hb hgoes]
        exact iff_of_false nofun (fun h => nomatch h.1)
      | true =>
        rw [search_of_goesOn list hb hgoes, ← ih]
        cases search goesOn base join test list <;> simp [Except.map]

theorem search_congr (h : ∀ a, Reaches goesOn test list a → test a = test' a) :
    search goesOn base join test list = search goesOn base join test' list := by
  induction list with
  | nil => rfl
  | cons b list ih =>
    have hb := h b (reaches_head goesOn test b list)
    cases htest : test b with
    | error fault => rw [search_of_error list htest, search_of_error list (hb.symm.trans htest)]
    | ok answer =>
      cases hgoes : goesOn answer with
      | false =>
        rw [search_of_stop list htest hgoes, search_of_stop list (hb.symm.trans htest) hgoes]
      | true =>
        rw [search_of_goesOn list htest hgoes, search_of_goesOn list (hb.symm.trans htest) hgoes]
        rw [ih fun a ha => h a (ha.tail htest hgoes)]

theorem allHold_eq_search (test : α → Except Fault Bool) (list : List α) :
    allHold test list = search id true (fun _ answer rest => answer && rest) test list := by
  induction list with
  | nil => rfl
  | cons a list ih =>
    rw [allHold, search, ih]
    cases test a with
    | error fault => rfl
    | ok answer =>
      cases answer with
      | false => rfl
      | true => cases search id true (fun _ answer rest => answer && rest) test list <;> rfl

end Searching

theorem select_eq_search (test : Record → Except Fault Bool) (records : List Record) :
    select test records =
      search (fun _ => true) [] (fun record keep rest => if keep then record :: rest else rest)
        test records := by
  induction records with
  | nil => rfl
  | cons record records ih =>
    rw [select, search, ih]
    rfl

namespace Clause

variable {contents : Contents} {find find' : Find} {className : String} {record : Record}

theorem holds_and (contents : Contents) (find : Find) (className : String) (record : Record)
    (parts : List Clause) :
    (and parts).holds contents find className record =
      search id true (fun _ answer rest => answer && rest)
        (holds contents find className record) parts := by
  rw [holds, ← allHold_eq_search]
  induction parts with
  | nil => rfl
  | cons part parts ih => rw [holdsEach, allHold, ih]

theorem holds_or (contents : Contents) (find : Find) (className : String) (record : Record)
    (parts : List Clause) :
    (or parts).holds contents find className record =
      search (! ·) false (fun _ answer rest => answer || rest)
        (holds contents find className record) parts := by
  rw [holds]
  induction parts with
  | nil => rfl
  | cons part parts ih =>
    rw [holdsAny, search, ih]
    cases part.holds contents find className record with
    | error fault => rfl
    | ok answer =>
      cases answer with
      | true => rfl
      | false =>
        cases search (! ·) false (fun _ answer rest => answer || rest)
          (holds contents find className record) parts <;> rfl

theorem forall_of_parts {P : Clause → Prop}
    (and : ∀ parts, (∀ part ∈ parts, P part) → P (.and parts))
    (or : ∀ parts, (∀ part ∈ parts, P part) → P (.or parts))
    (record : ∀ op param, P (.record op param)) (field : ∀ path test, P (.field path test))
    (clause : Clause) : P clause := by
  refine @Clause.rec P (fun parts => ∀ part ∈ parts, P part) and or record field nofun ?_ clause
  intro part parts hpart hparts
  exact List.forall_mem_cons.mpr ⟨hpart, hparts⟩

mutual

theorem parse_eq_error {fault : Fault} :
    ∀ {v : Value}, parse v = .error fault → ∃ reason, fault = .query reason
  | .null, h => by cases h
  | .obj fields, h => by
    have combined {key : String} {wrap : List Clause → Clause} {parts : Except Fault (List Clause)}
        (hb : branches? key fields = some parts) (hp : parts.map wrap = .error fault) :
          ∃ reason, fault = .query reason := by
      cases parts with
      | ok parts => cases hp
      | error other =>
        obtain rfl : other = fault := Except.error.inj hp
        exact branches?_eq_error hb
    rw [parse] at h
    split at h
    · rename_i parts hb
      exact combined hb h
    · split at h
      · rename_i parts hb
        exact combined hb h
      · cases h
  | .bool _, h | .num _, h | .str _, h | .arr _, h => ⟨_, (Except.error.inj h).symm⟩

theorem branches?_eq_error {key : String} {fault : Fault} : ∀ {fields : List (String × Value)},
    branches? key fields = some (.error fault) → ∃ reason, fault = .query reason
  | [], h => by cases h
  | (name, v) :: rest, h => by
    rw [branches?_cons] at h
    split at h
    · exact listed_eq_error (Option.some.inj h)
    · exact branches?_eq_error h

theorem listed_eq_error {key : String} {fault : Fault} :
    ∀ {v : Value}, listed key v = .error fault → ∃ reason, fault = .query reason
  | .arr _, h => parseEach_eq_error h
  | .null, h | .bool _, h | .num _, h | .str _, h | .obj _, h => ⟨_, (Except.error.inj h).symm⟩

theorem parseEach_eq_error {fault : Fault} :
    ∀ {items : List Value}, parseEach items = .error fault → ∃ reason, fault = .query reason
  | [], h => by cases h
  | v :: vs, h => by
    rw [parseEach] at h
    cases hv : parse v with
    | error other =>
      rw [hv] at h
      obtain rfl : other = fault := Except.error.inj h
      exact parse_eq_error hv
    | ok clause =>
      cases hvs : parseEach vs with
      | error other =>
        rw [hv, hvs] at h
        obtain rfl : other = fault := Except.error.inj h
        exact parseEach_eq_error hvs
      | ok rest =>
        rw [hv, hvs] at h
        cases h

end

end Clause

/-- An operator at work: on a field, or on a record as a whole, with its parameter and the flags
beside it. -/
structure Application where
  op : Operator
  field : Option Value
  param : Value
  options : Option String

namespace Application

def outcome (a : Application) (contents : Contents) (find : Find) : Except Fault Bool :=
  a.op.holds contents find a.field a.param a.options

def query? (a : Application) : Option Value :=
  match a.op with
  | .select | .dontSelect => (a.param.textField? "key").bind fun _ => a.param.field? "query"
  | .inQuery | .notInQuery => (a.field.bind Value.objectId?).map fun _ => a.param
  | _ => none

end Application

def describedClause (query : Value) : Except Fault Clause :=
  Clause.parse ((query.field? "where").getD .null)

namespace Application

/-- The operator runs a sub-query: a clause on a class. -/
def Runs (a : Application) (target : String) (sub : Clause) : Prop :=
  ∃ query, a.query? = some query ∧ query.textField? "className" = some target ∧
    describedClause query = .ok sub

/-- The operator cannot be applied, for what is wrong with its parameter. -/
inductive Malformed (a : Application) : QueryFault → Prop where
  | patternNotText (hop : a.op = .regex) (h : a.param.asText? = none) :
      Malformed a (.parameter .regex .pattern)
  | pattern {text source : String} (hop : a.op = .regex) (hfield : a.field = some (.str text))
      (hparam : a.param = .str source)
      (h : Pattern.compile? source a.options = none) : Malformed a (.pattern source)
  | noKey (hop : a.op = .select ∨ a.op = .dontSelect) (h : a.param.textField? "key" = none) :
      Malformed a (.parameter a.op .key)
  | noQuery {key : String} (hop : a.op = .select ∨ a.op = .dontSelect)
      (hkey : a.param.textField? "key" = some key)
      (h : a.param.field? "query" = none) : Malformed a (.parameter a.op .query)
  | noClass {query : Value} (hquery : a.query? = some query)
      (h : query.textField? "className" = none) : Malformed a (.parameter a.op .className)
  | clause {query : Value} {target : String} {reason : QueryFault} (hquery : a.query? = some query)
      (htarget : query.textField? "className" = some target) (h : describedClause query =
        .error (.query reason)) :
      Malformed a reason
  | noOwner (hop : a.op = .relatedTo) (h : (a.param.field? "object").bind Pointer.ofValue? = none) :
      Malformed a (.parameter .relatedTo .objectPointer)
  | noRelation {owner : Pointer} (hop : a.op = .relatedTo)
      (howner : (a.param.field? "object").bind Pointer.ofValue? = some owner)
      (h : a.param.textField? "key" = none) : Malformed a (.parameter .relatedTo .key)

variable {a : Application} {query : Value} {reason : QueryFault} {target : String} {sub : Clause}

theorem outcome_of_query (h : a.query? = some query) (contents : Contents) :
    ∃ answer : List Record → Bool,
      ∀ find, a.outcome contents find = (subQuery find a.op query).map answer := by
  obtain ⟨op, field, param, options⟩ := a
  have hselected
      (hquery : ((param.textField? "key").bind fun _ => param.field? "query") = some query) :
      ∃ answer : List Record → Bool,
        ∀ find, selected find op field param = (subQuery find op query).map answer := by
    obtain ⟨key, hkey, hq⟩ := Option.bind_eq_some_iff.mp hquery
    refine ⟨fun found => found.any fun record => fieldEquals (KeyMap.get? record key) field,
      fun find => ?_⟩
    simp only [selected, hkey, hq]
    cases subQuery find op query <;> rfl
  have hpoints (hquery : ((field.bind Value.objectId?).map fun _ => param) = some query) :
      ∃ answer : List Record → Bool,
        ∀ find, pointsInto find op field param = (subQuery find op query).map answer := by
    obtain ⟨id, hid, rfl⟩ := Option.map_eq_some_iff.mp hquery
    refine ⟨fun found => found.any fun record =>
      (KeyMap.get? record "objectId").bind Value.asText? == some id, fun find => ?_⟩
    simp only [pointsInto, hid]
    cases subQuery find op param <;> rfl
  cases op with
  | select => exact hselected h
  | dontSelect =>
    obtain ⟨answer, hanswer⟩ := hselected h
    refine ⟨fun found => !answer found, fun find => ?_⟩
    show (selected find .dontSelect field param).map (!·) = _
    rw [hanswer]
    cases subQuery find .dontSelect query <;> rfl
  | inQuery => exact hpoints h
  | notInQuery =>
    obtain ⟨answer, hanswer⟩ := hpoints h
    refine ⟨fun found => !answer found, fun find => ?_⟩
    show (pointsInto find .notInQuery field param).map (!·) = _
    rw [hanswer]
    cases subQuery find .notInQuery query <;> rfl
  | _ => cases h

theorem subQuery_of_noClass (find : Find) (op : Operator)
    (h : query.textField? "className" = none) :
    subQuery find op query = .error (.query (.parameter op .className)) := by
  rw [subQuery, h]
  rfl

theorem subQuery_of_target (find : Find) (op : Operator)
    (h : query.textField? "className" = some target) :
    subQuery find op query = describedClause query >>= find target := by
  rw [subQuery, h]
  rfl

theorem Malformed.outcome (h : a.Malformed reason) (contents : Contents) (find : Find) :
    a.outcome contents find = .error (.query reason) := by
  cases h with
  | noClass hquery hclass =>
    obtain ⟨answer, hanswer⟩ := outcome_of_query hquery contents
    rw [hanswer, subQuery_of_noClass find a.op hclass]
    rfl
  | clause hquery htarget hclause =>
    obtain ⟨answer, hanswer⟩ := outcome_of_query hquery contents
    rw [hanswer, subQuery_of_target find a.op htarget, hclause]
    rfl
  | patternNotText hop hparam =>
    rw [Application.outcome, hop]
    show matchesPattern a.field a.param a.options = _
    unfold matchesPattern
    split <;> simp_all [Value.asText?, lacks]
  | pattern hop hfield hparam hcompile =>
    rw [Application.outcome, hop, hfield, hparam]
    simp only [Operator.holds, matchesPattern, hcompile]
  | noKey hop hkey =>
    have hselected :
        selected find a.op a.field a.param = .error (.query (.parameter a.op .key)) := by
      simp only [selected, hkey, lacks]
    rcases hop with hop | hop <;> rw [Application.outcome, hop, Operator.holds, ← hop, hselected]
    rfl
  | noQuery hop hkey hq =>
    have hselected :
        selected find a.op a.field a.param = .error (.query (.parameter a.op .query)) := by
      simp only [selected, hkey, hq, lacks]
    rcases hop with hop | hop <;> rw [Application.outcome, hop, Operator.holds, ← hop, hselected]
    rfl
  | noOwner hop howner =>
    rw [Application.outcome, hop]
    simp only [Operator.holds, related, howner, lacks]
  | noRelation hop howner hkey =>
    rw [Application.outcome, hop]
    simp only [Operator.holds, related, howner, hkey, lacks]

theorem outcome_of_no_query (h : a.query? = none) (contents : Contents) :
    (∃ answer, ∀ find, a.outcome contents find = .ok answer) ∨ ∃ reason, a.Malformed reason := by
  have hselects (hop : a.op = .select ∨ a.op = .dontSelect)
      (hnone : a.query? = (a.param.textField? "key").bind fun _ => a.param.field? "query") :
        ∃ reason, a.Malformed reason := by
    rw [h] at hnone
    cases hkey : a.param.textField? "key" with
    | none => exact ⟨_, .noKey hop hkey⟩
    | some key =>
      rw [hkey] at hnone
      exact ⟨_, .noQuery hop hkey hnone.symm⟩
  obtain ⟨op, field, param, options⟩ := a
  cases op with
  | select => exact .inr (hselects (.inl rfl) rfl)
  | dontSelect => exact .inr (hselects (.inr rfl) rfl)
  | inQuery =>
    have hid : field.bind Value.objectId? = none := Option.map_eq_none_iff.mp h
    refine .inl ⟨false, fun find => ?_⟩
    simp only [Application.outcome, Operator.holds, pointsInto, hid]
  | notInQuery =>
    have hid : field.bind Value.objectId? = none := Option.map_eq_none_iff.mp h
    refine .inl ⟨true, fun find => ?_⟩
    simp only [Application.outcome, Operator.holds, pointsInto, hid]
    rfl
  | regex =>
    cases param with
    | str source =>
      cases field with
      | none => exact .inl ⟨false, fun _ => rfl⟩
      | some v =>
        cases v with
        | str text =>
          cases hcompile : Pattern.compile? source options with
          | none => exact .inr ⟨_, .pattern rfl rfl rfl hcompile⟩
          | some machine =>
            refine .inl ⟨machine.isMatch text, fun find => ?_⟩
            simp only [Application.outcome, Operator.holds, matchesPattern, hcompile]
        | _ => exact .inl ⟨false, fun _ => rfl⟩
    | _ => exact .inr ⟨_, .patternNotText rfl rfl⟩
  | relatedTo =>
    cases howner : (param.field? "object").bind Pointer.ofValue? with
    | none => exact .inr ⟨_, .noOwner rfl howner⟩
    | some owner =>
      cases hkey : param.textField? "key" with
      | none => exact .inr ⟨_, .noRelation rfl howner hkey⟩
      | some key =>
        let members := (relationItems contents owner key).filterMap Pointer.ofValue?
        refine .inl ⟨(field.bind Pointer.ofValue?).any members.contains, fun find => ?_⟩
        simp only [Application.outcome, Operator.holds, related, howner, hkey]
        rfl
  | _ => exact .inl ⟨_, fun _ => rfl⟩

theorem outcome_congr {find find' : Find}
    (h : ∀ target sub, a.Runs target sub → find target sub = find' target sub)
    (contents : Contents) : a.outcome contents find = a.outcome contents find' := by
  cases hquery : a.query? with
  | none =>
    rcases outcome_of_no_query hquery contents with ⟨answer, hanswer⟩ | ⟨reason, hmalformed⟩
    · rw [hanswer, hanswer]
    · rw [hmalformed.outcome, hmalformed.outcome]
  | some query =>
    obtain ⟨answer, hanswer⟩ := outcome_of_query hquery contents
    rw [hanswer, hanswer]
    cases htarget : query.textField? "className" with
    | none => rw [subQuery_of_noClass find a.op htarget, subQuery_of_noClass find' a.op htarget]
    | some target =>
      rw [subQuery_of_target find a.op htarget, subQuery_of_target find' a.op htarget]
      cases hsub : describedClause query with
      | error fault => rfl
      | ok sub => exact congrArg (Except.map answer) (h target sub ⟨query, hquery, htarget, hsub⟩)

theorem outcome_eq_error_iff {contents : Contents} {find : Find} {fault : Fault} :
    a.outcome contents find = .error fault ↔
      (∃ reason, a.Malformed reason ∧ fault = .query reason) ∨
        ∃ target sub, a.Runs target sub ∧ find target sub = .error fault := by
  constructor
  · intro hfault
    cases hquery : a.query? with
    | none =>
      rcases outcome_of_no_query hquery contents with ⟨answer, hanswer⟩ | ⟨reason, hmalformed⟩
      · cases (hanswer find).symm.trans hfault
      · exact .inl ⟨reason, hmalformed,
          Except.error.inj (hfault.symm.trans (hmalformed.outcome contents find))⟩
    | some query =>
      obtain ⟨answer, hanswer⟩ := outcome_of_query hquery contents
      have hfound : subQuery find a.op query = .error fault := by
        rw [hanswer] at hfault
        cases hs : subQuery find a.op query with
        | error other =>
          rw [hs] at hfault
          exact congrArg Except.error (Except.error.inj hfault)
        | ok found =>
          rw [hs] at hfault
          cases hfault
      cases htarget : query.textField? "className" with
      | none =>
        rw [subQuery_of_noClass find a.op htarget] at hfound
        exact .inl ⟨_, .noClass hquery htarget, (Except.error.inj hfound).symm⟩
      | some target =>
        rw [subQuery_of_target find a.op htarget] at hfound
        cases hsub : describedClause query with
        | error other =>
          obtain ⟨reason, rfl⟩ := Clause.parse_eq_error hsub
          rw [hsub] at hfound
          exact .inl ⟨reason, .clause hquery htarget hsub, (Except.error.inj hfound).symm⟩
        | ok sub =>
          rw [hsub] at hfound
          exact .inr ⟨target, sub, ⟨query, hquery, htarget, hsub⟩, hfound⟩
  · rintro (⟨reason, hmalformed, rfl⟩ | ⟨target, sub, ⟨query, hquery, htarget, hsub⟩, hfound⟩)
    · exact hmalformed.outcome contents find
    · obtain ⟨answer, hanswer⟩ := outcome_of_query hquery contents
      rw [hanswer, subQuery_of_target find a.op htarget, hsub]
      show (find target sub).map answer = _
      rw [hfound]
      rfl

end Application

namespace Clause

/-- To test a record by a clause, an operator is applied. -/
inductive Applies (contents : Contents) (find : Find) (className : String) (record : Record) :
    Clause → Application → Prop where
  | and {parts : List Clause} {part : Clause} {a : Application}
      (reached : Reaches id (holds contents find className record) parts part)
      (applied : Applies contents find className record part a) :
      Applies contents find className record (.and parts) a
  | or {parts : List Clause} {part : Clause} {a : Application}
      (reached : Reaches (! ·) (holds contents find className record) parts part)
      (applied : Applies contents find className record part a) :
      Applies contents find className record (.or parts) a
  | record (op : Operator) (param : Value) :
      Applies contents find className record (.record op param)
        ⟨op, some (.obj record), param, none⟩
  | field {path : FieldPath} {list : List Constraint} {value : Option Value} {op : Operator}
      {param : Value} (resolved : resolve record path.parents path.key = some value)
      (reached : Reaches id (Constraint.holds contents find value (optionsOf list)) list
        (.operator op param)) :
      Applies contents find className record (.field path (.constraints list))
        ⟨op, value, param, optionsOf list⟩

variable {contents : Contents} {find find' : Find} {className : String} {record : Record}

theorem related_eq_error_iff (contents : Contents) (param : Value)
    (subject subject' : Option Pointer) (fault : Fault) :
    related contents param subject = .error fault ↔
      related contents param subject' = .error fault := by
  unfold related
  split <;> simp

theorem holds_record_eq_error_iff {op : Operator} {param : Value} {fault : Fault} :
    (Clause.record op param).holds contents find className record = .error fault ↔
      (⟨op, some (.obj record), param, none⟩ : Application).outcome contents find =
        .error fault := by
  cases op with
  | relatedTo => exact related_eq_error_iff ..
  | _ => rfl

/-- A test fails with the fault of an operator that is applied. -/
theorem holds_eq_error_iff {fault : Fault} (clause : Clause) :
    clause.holds contents find className record = .error fault ↔
      ∃ a, clause.Applies contents find className record a ∧
        a.outcome contents find = .error fault := by
  induction clause using forall_of_parts with
  | and parts ih =>
    rw [holds_and, search_eq_error_iff]
    constructor
    · rintro ⟨part, hreached, hpart⟩
      obtain ⟨a, happlied, ha⟩ := (ih part hreached.mem).mp hpart
      exact ⟨a, .and hreached happlied, ha⟩
    · rintro ⟨a, ⟨hreached, happlied⟩, ha⟩
      exact ⟨_, hreached, (ih _ hreached.mem).mpr ⟨a, happlied, ha⟩⟩
  | or parts ih =>
    rw [holds_or, search_eq_error_iff]
    constructor
    · rintro ⟨part, hreached, hpart⟩
      obtain ⟨a, happlied, ha⟩ := (ih part hreached.mem).mp hpart
      exact ⟨a, .or hreached happlied, ha⟩
    · rintro ⟨a, _ | ⟨hreached, happlied⟩, ha⟩
      exact ⟨_, hreached, (ih _ hreached.mem).mpr ⟨a, happlied, ha⟩⟩
  | record op param =>
    rw [holds_record_eq_error_iff]
    constructor
    · exact fun ha => ⟨_, .record op param, ha⟩
    · rintro ⟨a, ⟨⟩, ha⟩
      exact ha
  | field path test =>
    rw [holds]
    cases hvalue : resolve record path.parents path.key with
    | none =>
      refine iff_of_false nofun ?_
      rintro ⟨a, happlied, -⟩
      cases happlied with
      | field resolved reached => cases hvalue.symm.trans resolved
    | some value =>
      cases test with
      | equals param =>
        refine iff_of_false nofun ?_
        rintro ⟨a, ⟨⟩, -⟩
      | constraints list =>
        show allHold (Constraint.holds contents find value (optionsOf list)) list = .error fault ↔ _
        rw [allHold_eq_search, search_eq_error_iff]
        constructor
        · rintro ⟨constraint, hreached, hfault⟩
          cases constraint with
          | operator op param => exact ⟨_, .field hvalue hreached, hfault⟩
          | subKey key param => cases hfault
        · rintro ⟨a, happlied, ha⟩
          cases happlied with
          | field resolved reached =>
            obtain rfl := Option.some.inj (hvalue.symm.trans resolved)
            exact ⟨_, reached, ha⟩

theorem holds_congr (clause : Clause)
    (h : ∀ a, clause.Applies contents find className record a →
      ∀ target sub, a.Runs target sub → find target sub = find' target sub) :
    clause.holds contents find className record = clause.holds contents find' className record := by
  induction clause using forall_of_parts with
  | and parts ih =>
    rw [holds_and, holds_and]
    exact search_congr fun part hreached => ih part hreached.mem fun a ha => h a (.and hreached ha)
  | or parts ih =>
    rw [holds_or, holds_or]
    exact search_congr fun part hreached => ih part hreached.mem fun a ha => h a (.or hreached ha)
  | record op param =>
    have hop := Application.outcome_congr (h _ (.record op param)) contents
    cases op with
    | relatedTo => rfl
    | _ => exact hop
  | field path test =>
    rw [holds, holds]
    cases hvalue : resolve record path.parents path.key with
    | none => rfl
    | some value =>
      cases test with
      | equals param => rfl
      | constraints list =>
        show allHold (Constraint.holds contents find value (optionsOf list)) list = allHold _ list
        rw [allHold_eq_search, allHold_eq_search]
        refine search_congr fun constraint hreached => ?_
        cases constraint with
        | operator op param =>
          exact Application.outcome_congr (h _ (.field hvalue hreached)) contents
        | subKey key param => rfl

end Clause

namespace Contents

def Applies (c : Contents) (find : Find) (className : String) (clause : Clause) (a : Application) :
    Prop :=
  ∃ record, Reaches (fun _ => true) (clause.holds c find className) (c.records className) record ∧
    clause.Applies c find className record a

variable {c : Contents} {find find' : Find} {className : String} {clause : Clause}

theorem select_congr
    (h : ∀ a, c.Applies find className clause a → ∀ target sub, a.Runs target sub →
      find target sub = find' target sub) :
    select (clause.holds c find className) (c.records className) =
      select (clause.holds c find' className) (c.records className) := by
  rw [select_eq_search, select_eq_search]
  refine search_congr fun record hreached => Clause.holds_congr clause fun a ha => ?_
  exact h a ⟨record, hreached, ha⟩

theorem matching_eq_error_iff {fault : Fault} :
    matching c className clause = .error fault ↔
      ∃ a, c.Applies (matching c) className clause a ∧ a.outcome c (matching c) = .error fault := by
  rw [matching_eq, select_eq_search, search_eq_error_iff]
  constructor
  · rintro ⟨record, hreached, hrecord⟩
    obtain ⟨a, ha, hfault⟩ := (Clause.holds_eq_error_iff clause).mp hrecord
    exact ⟨a, ⟨record, hreached, ha⟩, hfault⟩
  · rintro ⟨a, ⟨record, hreached, ha⟩, hfault⟩
    exact ⟨record, hreached, (Clause.holds_eq_error_iff clause).mpr ⟨a, ha, hfault⟩⟩

theorem applies_single {record : Record} {rest : List Record}
    (hrecords : c.records className = record :: rest) (field : String) (op : Operator)
    (param : Value) :
    c.Applies find className (.and [.field ⟨[], field⟩ (.constraints [.operator op param])])
      ⟨op, KeyMap.get? record field, param, optionsOf [.operator op param]⟩ := by
  refine ⟨record, ?_, .and (reaches_head ..) (.field rfl (reaches_head ..))⟩
  rw [hrecords]
  exact reaches_head ..

end Contents

end DocumentStore
