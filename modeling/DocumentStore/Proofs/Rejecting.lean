import DocumentStore.Engine.Serving
import DocumentStore.Proofs.Nesting
import DocumentStore.Proofs.Run

/-!
Queries that are rejected. What cannot be read as a where clause is rejected in every state. The
parameters of operators stay as they are written until the operators are applied, so what is wrong
with one shows in those states in which it is applied.
-/

namespace DocumentStore

namespace Clause

/-- An operator with its parameter, and the flags beside it, is part of a clause or of a sub-query
inside its parameters. -/
inductive Mentions : Clause → Operator → Value → Option String → Prop where
  | and {parts : List Clause} {part : Clause} {op : Operator} {param : Value}
      {options : Option String} (hpart : part ∈ parts)
      (h : Mentions part op param options) : Mentions (.and parts) op param options
  | or {parts : List Clause} {part : Clause} {op : Operator} {param : Value}
      {options : Option String} (hpart : part ∈ parts)
      (h : Mentions part op param options) : Mentions (.or parts) op param options
  | record (op : Operator) (param : Value) : Mentions (.record op param) op param none
  | field {path : FieldPath} {list : List Constraint} {op : Operator} {param : Value}
      (h : .operator op param ∈ list) :
      Mentions (.field path (.constraints list)) op param (optionsOf list)
  | within {clause sub : Clause} {a : Application} {target : String} {op : Operator} {param : Value}
      {options : Option String} (h : Mentions clause a.op a.param a.options)
      (hsub : a.Runs target sub) (hin : Mentions sub op param options) :
      Mentions clause op param options

/-- No operator of the clause is malformed, whatever field it is applied to. -/
def Sound (clause : Clause) : Prop :=
  ∀ a : Application, clause.Mentions a.op a.param a.options → ∀ reason, ¬ a.Malformed reason

theorem Applies.mentions {contents : Contents} {find : Find} {className : String} {record : Record}
    {clause : Clause} {a : Application} (h : clause.Applies contents find className record a) :
    clause.Mentions a.op a.param a.options := by
  induction h with
  | and reached _ ih => exact .and reached.mem ih
  | or reached _ ih => exact .or reached.mem ih
  | record op param => exact .record op param
  | field _ reached => exact .field reached.mem

end Clause

namespace Contents

/-- Running a clause on a class comes to apply a malformed operator, in the clause itself or in a
sub-query that it runs. -/
inductive Trips (c : Contents) : String → Clause → QueryFault → Prop where
  | malformed {className : String} {clause : Clause} {a : Application} {reason : QueryFault}
      (applied : c.Applies (matching c) className clause a) (h : a.Malformed reason) :
      Trips c className clause reason
  | within {className target : String} {clause sub : Clause} {a : Application} {reason : QueryFault}
      (applied : c.Applies (matching c) className clause a) (runs : a.Runs target sub)
      (h : Trips c target sub reason) : Trips c className clause reason

variable {c : Contents} {className : String} {clause : Clause} {reason : QueryFault}

theorem Trips.matching_eq (h : c.Trips className clause reason) :
    matching c className clause = .error (.query reason) := by
  induction h with
  | malformed applied h =>
    exact matching_eq_error_iff.mpr ⟨_, applied, h.outcome c (matching c)⟩
  | within applied runs _ ih =>
    exact matching_eq_error_iff.mpr
      ⟨_, applied, Application.outcome_eq_error_iff.mpr (.inr ⟨_, _, runs, ih⟩)⟩

theorem matching_eq_error_iff_trips :
    matching c className clause = .error (.query reason) ↔ c.Trips className clause reason := by
  refine ⟨?_, Trips.matching_eq⟩
  induction className, clause using forall_of_subQueries (c := c) with
  | step className clause ih =>
    intro hfault
    obtain ⟨a, ha, houtcome⟩ := matching_eq_error_iff.mp hfault
    rcases Application.outcome_eq_error_iff.mp houtcome with
      ⟨other, hmalformed, heq⟩ | ⟨target, sub, hsub, hfound⟩
    · obtain rfl : reason = other := Fault.query.inj heq
      exact .malformed ha hmalformed
    · exact .within ha hsub (ih a ha target sub hsub hfound)

theorem Trips.not_sound (h : c.Trips className clause reason) : ¬ clause.Sound := by
  induction h with
  | malformed applied h =>
    obtain ⟨record, -, happlied⟩ := applied
    exact fun hsound => hsound _ happlied.mentions _ h
  | within applied runs _ ih =>
    obtain ⟨record, -, happlied⟩ := applied
    exact fun hsound => ih fun a hmentions => hsound a (.within happlied.mentions runs hmentions)

theorem Trips.records_ne_nil (h : c.Trips className clause reason) : c.records className ≠ [] := by
  have happlied : ∃ a, c.Applies (matching c) className clause a := by
    cases h with
    | malformed applied _ => exact ⟨_, applied⟩
    | within applied _ _ => exact ⟨_, applied⟩
  obtain ⟨a, record, hreached, -⟩ := happlied
  exact List.ne_nil_of_mem hreached.mem

end Contents

def Request.filtering (className : String) (w : Value) : Request :=
  .query className (.obj [("where", w)])

namespace Engine

def Rejects (e : Engine) (nested : Serve) (className : String) (w : Value) (reason : QueryFault) :
    Prop :=
  serveWith nested (.filtering className w) e = some (.error (.query reason), e)

variable {e : Engine} {nested : Serve} {className : String} {w : Value} {fault : Fault}
  {filter : Option Clause}

theorem serve_unreadable (h : ReadParams.readFilter (some w) = .error fault) (e : Engine)
    (nested : Serve) (className : String) :
    serveWith nested (.filtering className w) e = some (.error fault, e) := by
  have hparams : ReadParams.ofPayload (.obj [("where", w)]) = .error fault := by
    show (ReadParams.readFilter (some w) >>= _) = _
    rw [h]
    rfl
  exact congrArg (fun outcome => some (outcome, e))
    (Contents.query_of_error hparams e.contents e.settings className)

theorem serve_readable (h : ReadParams.readFilter (some w) = .ok filter) (e : Engine)
    (nested : Serve) (className : String) :
    (∃ found, matching e.contents className (filter.getD .matchAll) = .ok found ∧
      ∃ response, serveWith nested (.filtering className w) e = some (.ok response, e)) ∨
    ∃ fault, matching e.contents className (filter.getD .matchAll) = .error fault ∧
      serveWith nested (.filtering className w) e = some (.error fault, e) := by
  have hparams : ReadParams.ofPayload (.obj [("where", w)]) = .ok { filter } := by
    show (ReadParams.readFilter (some w) >>= _) = _
    rw [h]
    rfl
  have htarget : e.contents.targetClass className { filter } = className := by cases filter <;> rfl
  have hserve {outcome : Outcome}
      (hquery : e.contents.query e.settings className (.obj [("where", w)]) = outcome) :
      serveWith nested (.filtering className w) e = some (outcome, e) :=
        congrArg (fun outcome => some (outcome, e)) hquery
  have hsorted : e.contents.sortedMatches (e.contents.targetClass className { filter }) { filter } =
      matching e.contents className (filter.getD .matchAll) := by
    rw [htarget]
    exact Contents.sortedMatches_of_unsorted rfl e.contents className
  cases hmatching : matching e.contents className (filter.getD .matchAll) with
  | ok found =>
    rw [hmatching] at hsorted
    exact .inl ⟨found, rfl, _, hserve (Contents.query_of_matches hparams hsorted e.settings)⟩
  | error fault =>
    rw [hmatching] at hsorted
    exact .inr ⟨fault, rfl, hserve (Contents.query_of_matching_error hparams hsorted e.settings)⟩

theorem rejects_iff {reason : QueryFault} (h : ReadParams.readFilter (some w) = .ok filter)
    (e : Engine) (nested : Serve) (className : String) :
    e.Rejects nested className w reason ↔
      e.contents.Trips className (filter.getD .matchAll) reason := by
  rw [← Contents.matching_eq_error_iff_trips, Rejects]
  rcases serve_readable h e nested className with
    ⟨found, hfound, response, hserve⟩ | ⟨fault, hfault, hserve⟩
  · rw [hfound, hserve]
    simp
  · rw [hfault, hserve]
    simp

/--
What cannot be read as a where clause is answered alike in every state. Any other clause is rejected
in just those states in which running it comes to apply an operator whose parameter is malformed,
and is answered in the others; so it is never rejected where no operator of it is malformed at any
depth, nor while the class has no records.
-/
theorem rejection_shows_when_applied (className : String) (w : Value) :
    (∀ fault, ReadParams.readFilter (some w) = .error fault →
      ∀ (e : Engine) nested, serveWith nested (.filtering className w) e = some (.error fault, e)) ∧
    ∀ filter, ReadParams.readFilter (some w) = .ok filter → ∀ (e : Engine) nested,
      (∀ reason, e.Rejects nested className w reason ↔
        e.contents.Trips className (filter.getD .matchAll) reason) ∧
      ((∀ reason, ¬ e.Rejects nested className w reason) →
        ∃ response, serveWith nested (.filtering className w) e = some (.ok response, e)) ∧
      ((filter.getD .matchAll).Sound ∨ e.contents.records className = [] →
        ∀ reason, ¬ e.Rejects nested className w reason) := by
  refine ⟨fun fault h e nested => serve_unreadable h e nested className,
    fun filter h e nested => ?_⟩
  refine ⟨fun _ => rejects_iff h e nested className, fun hanswered => ?_,
    fun hnone reason hrejected => ?_⟩
  · rcases serve_readable h e nested className with
      ⟨found, -, response, hserve⟩ | ⟨fault, hfault, hserve⟩
    · exact ⟨response, hserve⟩
    · rcases e.contents.matching_ok_or_query className (filter.getD .matchAll) with
        ⟨found, hok⟩ | ⟨reason, herror⟩
      · cases hok.symm.trans hfault
      · obtain rfl : fault = .query reason := Except.error.inj (hfault.symm.trans herror)
        exact absurd hserve (hanswered reason)
  · have htrips := (rejects_iff h e nested className).mp hrejected
    rcases hnone with hsound | hempty
    · exact htrips.not_sound hsound
    · exact htrips.records_ne_nil hempty

def unclosed : Value := testing .regex "name" (.str "(")

theorem plainName_name : PlainName "name" := ⟨by decide, by decide⟩

theorem readFilter_unclosed : ReadParams.readFilter (some unclosed) =
    .ok (some (.and [.field ⟨[], "name"⟩ (.constraints [.operator .regex (.str "(")])])) :=
  ReadParams.readFilter_of_parse (Clause.parse_testing plainName_name .regex (.str "("))

theorem trips_unclosed {c : Contents} {className name : String} {record : Record}
    {rest : List Record} (hrecords : c.records className = record :: rest)
    (hname : KeyMap.get? record "name" = some (.str name)) :
    c.Trips className (.and [.field ⟨[], "name"⟩ (.constraints [.operator .regex (.str "(")])])
      (.pattern "(") := by
  have hcompile : Pattern.compile? "(" none = none :=
    Option.isNone_iff_eq_none.mp (by decide +kernel)
  exact .malformed (Contents.applies_single hrecords "name" .regex (.str "("))
    (.pattern rfl hname rfl hcompile)

def filling : Run where
  settings := { objectIdLength := 1 }
  usable := Settings.valid_shortest
  clock := {}
  ids := {}
  client := .send (.create "Item" (.obj [("name", .str "a")])) fun _ => .answer .nothing

theorem records_filling_before : (filling.moment 0).engine.contents.records "Item" = [] := rfl

theorem records_filling_after :
    ∃ record, (filling.moment 2).engine.contents.records "Item" = [record] ∧
    KeyMap.get? record "name" = some (.str "a") := ⟨_, rfl, rfl⟩

theorem rejection_shows_when_applied_unclosed :
    (ReadParams.readFilter (some (.obj [("$or", .bool true)])) =
      .error (.query (.branchesNotList "$or" (.bool true))) ∧
      ∀ n, (filling.moment n).engine.Rejects (serve 0) "Item" (.obj [("$or", .bool true)])
        (.branchesNotList "$or" (.bool true))) ∧
    (∃ filter, ReadParams.readFilter (some unclosed) = .ok filter) ∧
    (∃ response, serveWith (serve 0) (.filtering "Item" unclosed) (filling.moment 0).engine =
      some (.ok response, (filling.moment 0).engine)) ∧
    (filling.moment 2).engine.Rejects (serve 0) "Item" unclosed (.pattern "(") := by
  have hor : ReadParams.readFilter (some (.obj [("$or", .bool true)])) =
      .error (.query (.branchesNotList "$or" (.bool true))) := rfl
  have hunreadable := (rejection_shows_when_applied "Item" (.obj [("$or", .bool true)])).1 _ hor
  have hreadable := (rejection_shows_when_applied "Item" unclosed).2 _ readFilter_unclosed
  obtain ⟨-, hanswered, hnone⟩ := hreadable (filling.moment 0).engine (serve 0)
  obtain ⟨record, hrecords, hname⟩ := records_filling_after
  refine ⟨⟨hor, fun n => hunreadable _ _⟩, ⟨_, readFilter_unclosed⟩, ?_, ?_⟩
  · exact hanswered (hnone (.inr records_filling_before))
  · exact ((hreadable (filling.moment 2).engine (serve 0)).1 _).mpr (trips_unclosed hrecords hname)

/-- The clause with the open group is valid as long as there is no item, and invalid after one is
created. -/
theorem filling_makes_invalid :
    ¬ ((∃ reason, (filling.moment 0).engine.Rejects (serve 0) "Item" unclosed reason) ↔
      ∃ reason, (filling.moment 2).engine.Rejects (serve 0) "Item" unclosed reason) := by
  intro hsame
  obtain ⟨record, hrecords, hname⟩ := records_filling_after
  obtain ⟨reason, hrejected⟩ :=
    hsame.mpr ⟨_, (rejects_iff readFilter_unclosed ..).mpr (trips_unclosed hrecords hname)⟩
  exact ((rejects_iff readFilter_unclosed ..).mp hrejected).records_ne_nil records_filling_before

end Engine

end DocumentStore
