import DocumentStore.Proofs.Relations

/-!
Redirected queries. A query that follows a relation is answered like the same query without the
redirection on the class that the relation leads to. That class is found by a walk of its own from
the owner to the field, beside the one that tests membership: the two agree on lists, but a single
pointer is a member for the test only.
-/

namespace DocumentStore

def Response.naming (className : String) (r : Response) : Response :=
  let fields : Record :=
    match r.body with
    | .obj fields => fields
    | _ => []
  { r with body := .obj (KeyMap.insert fields "className" (.str className)) }

theorem Response.className_naming (className : String) (r : Response) :
    (r.naming className).body.field? "className" = some (.str className) :=
  KeyMap.get?_insert_self _ _ _

namespace Contents

def relationField? (c : Contents) (param : Value) : Option Value := do
  let owner ← (param.field? "object").bind Pointer.ofValue?
  let key ← param.textField? "key"
  (c.fetch owner.className owner.objectId).bind (KeyMap.get? · key)

def relatedMembers (c : Contents) (param : Value) : List Pointer :=
  pointersIn (elements (c.relationField? param))

def relatedClass? (c : Contents) (param : Value) : Option String :=
  (c.relatedMembers param).head?.map (·.className)

/-- The field of a relation is a pointer itself, in the place of a list of pointers. -/
def RelatesToOne (c : Contents) (param : Value) : Prop :=
  ((c.relationField? param).bind Pointer.ofValue?).isSome = true

variable {c : Contents} {param : Value} {key : String}

theorem relatedMembers_of_field {v : Value} (h : c.relationField? param = some v) :
    c.relatedMembers param = pointersIn v.asItems := by
  rw [relatedMembers, h]
  rfl

theorem related_eq_of_ok {subject : Option Pointer} {keep : Bool}
    (h : related c param subject = .ok keep) :
    keep = subject.any fun p => (c.relatedMembers param).contains p := by
  unfold related at h
  unfold relatedMembers relationField?
  split at h
  · cases h
  · cases h
  · rename_i owner key howner hkey
    rw [howner, hkey]
    exact (Except.ok.inj h).symm

theorem redirected?_eq {filter : Clause} (hrelated : filter.relatedTo? = some param)
    (hkey : param.textField? "key" = some key) :
    c.redirected? filter key =
      match c.relationField? param with
      | some (.arr items) => (items.findSome? Pointer.ofValue?).map (·.className)
      | _ => none := by
  rw [redirected?, hrelated]
  simp only [Option.bind_eq_bind, Option.bind_some, if_pos hkey, relationField?]
  rw [hkey]
  cases (param.field? "object").bind Pointer.ofValue? <;> rfl

theorem redirected?_eq_relatedClass? {filter : Clause} (hrelated : filter.relatedTo? = some param)
    (hkey : param.textField? "key" = some key) (hlisted : ¬ c.RelatesToOne param) :
    c.redirected? filter key = c.relatedClass? param := by
  rw [RelatesToOne, Option.not_isSome_iff_eq_none] at hlisted
  rw [redirected?_eq hrelated hkey, relatedClass?, relatedMembers, pointersIn, List.head?_filterMap]
  cases hv : c.relationField? param with
  | none => rfl
  | some v =>
    rw [hv, Option.bind_some] at hlisted
    cases v with
    | arr items => rfl
    | _ => simp [elements, Value.asItems, hlisted]

theorem redirected?_of_relatesToOne {filter : Clause} (hrelated : filter.relatedTo? = some param)
    (hkey : param.textField? "key" = some key) (hone : c.RelatesToOne param) :
    c.redirected? filter key = none := by
  rw [redirected?_eq hrelated hkey]
  split
  · rename_i items hv
    rw [RelatesToOne, hv] at hone
    cases hone
  · rfl

end Contents

namespace ReadParams

def withoutRedirection (fields : Record) : Value :=
  .obj (KeyMap.erase fields "redirectClassNameForKey")

theorem ofPayload_withoutRedirection (fields : Record) :
    ofPayload (withoutRedirection fields) =
      (ofPayload (.obj fields)).map fun params => { params with redirectKey := none } := by
  let rest : Record := KeyMap.erase fields "redirectClassNameForKey"
  have hother (name : String) (h : name ≠ "redirectClassNameForKey") :
      KeyMap.get? rest name = KeyMap.get? fields name :=
    KeyMap.get?_erase_of_ne fields h
  have hwindow (name : String) (h : name ≠ "redirectClassNameForKey") :
      window rest name = window fields name := by
    rw [window, window, hother name h]
  have horder : textOf rest "order" = textOf fields "order" := by
    rw [textOf, textOf, hother "order" (by decide)]
  have hredirect : textOf rest "redirectClassNameForKey" = none := by
    rw [textOf, KeyMap.get?_erase_self]
    rfl
  rw [withoutRedirection, ofPayload, ofPayload, hother "where" (by decide),
    hother "include" (by decide), hother "count" (by decide), hwindow "limit" (by decide),
    hwindow "skip" (by decide), horder, hredirect]
  cases readFilter (KeyMap.get? fields "where") with
  | error fault => rfl
  | ok filter =>
    cases window fields "limit" with
    | error fault => rfl
    | ok limit => cases window fields "skip" <;> rfl

/-- A query is redirected through the field that a top-level `$relatedTo` of its clause names. -/
structure RedirectsThrough (fields : Record) (clause : Clause) (param : Value) (key : String) :
    Prop where
  filter : readFilter (KeyMap.get? fields "where") = .ok (some clause)
  related : clause.relatedTo? = some param
  keyed : param.textField? "key" = some key
  redirect : textOf fields "redirectClassNameForKey" = some key

end ReadParams

namespace Contents

variable {c : Contents} {className target : String} {fields : Record} {param : Value}

theorem targetClass_unredirected (c : Contents) (className : String) (params : ReadParams) :
    c.targetClass className { params with redirectKey := none } = className := by
  rw [targetClass]
  cases params.filter <;> rfl

theorem targetClass_of_redirected {params : ReadParams} {filter : Clause} {key : String}
    (hfilter : params.filter = some filter) (hkey : params.redirectKey = some key) (c : Contents)
    (className : String) :
    c.targetClass className params = (c.redirected? filter key).getD className := by
  rw [targetClass, hfilter, hkey]
  rfl

theorem query_eq_naming {key : String}
    (hredirect : ReadParams.textOf fields "redirectClassNameForKey" = some key)
    (htarget : ∀ params, ReadParams.ofPayload (.obj fields) = .ok params →
      c.targetClass className params = target)
    (settings : Settings) :
    c.query settings className (.obj fields) =
      (c.query settings target (ReadParams.withoutRedirection fields)).map (.naming target) := by
  have hplain := ReadParams.ofPayload_withoutRedirection fields
  cases hparams : ReadParams.ofPayload (.obj fields) with
  | error fault =>
    rw [hparams] at hplain
    rw [query_of_error hparams, query_of_error hplain]
    rfl
  | ok params =>
    rw [hparams] at hplain
    have hkey : params.redirectKey = some key :=
      (ReadParams.ofPayload_eq_ok hparams).2.2.2.trans hredirect
    have hsame := c.targetClass_unredirected target params
    cases hfound : c.sortedMatches target params with
    | error fault =>
      rw [query_of_matching_error hparams (by rw [htarget params hparams]; exact hfound),
        query_of_matching_error hplain (by rw [hsame]; exact hfound)]
      rfl
    | ok found =>
      rw [query_of_matches hparams (by rw [htarget params hparams]; exact hfound),
        query_of_matches hplain (by rw [hsame]; exact hfound), htarget params hparams, hsame, hkey]
      cases params.count <;> rfl

end Contents

namespace Engine

/-- A redirected query is answered for a class: like the same query without its redirection on this
class, and with its name. -/
def AnswersFor (e : Engine) (nested : Serve) (className : String) (fields : Record)
    (target : String) : Prop :=
  ∃ outcome,
    serveWith nested (.query target (ReadParams.withoutRedirection fields)) e = some (outcome, e) ∧
    serveWith nested (.query className (.obj fields)) e = some (outcome.map (.naming target), e)

variable {e : Engine} {className : String} {fields : Record} {clause : Clause} {param : Value}
  {key : String}

theorem answersFor_redirected (h : ReadParams.RedirectsThrough fields clause param key) (e : Engine)
    (nested : Serve) (className : String) :
    e.AnswersFor nested className fields ((e.contents.redirected? clause key).getD className) := by
  refine ⟨_, rfl, ?_⟩
  have htarget (params : ReadParams) (hparams : ReadParams.ofPayload (.obj fields) = .ok params) :
      e.contents.targetClass className params =
        (e.contents.redirected? clause key).getD className := by
    obtain ⟨hfilter, -, -, hredirect⟩ := ReadParams.ofPayload_eq_ok hparams
    have hclause : params.filter = some clause := Except.ok.inj (hfilter.symm.trans h.filter)
    exact Contents.targetClass_of_redirected hclause (hredirect.trans h.redirect)
      e.contents className
  exact congrArg (fun outcome => some (outcome, e))
    (Contents.query_eq_naming h.redirect htarget e.settings)

theorem AnswersFor.target_eq {nested : Serve} {target target' : String}
    (h : e.AnswersFor nested className fields target)
    (h' : e.AnswersFor nested className fields target')
    (hok : ∃ response,
      serveWith nested (.query className (.obj fields)) e = some (.ok response, e)) :
    target = target' := by
  obtain ⟨response, hresponse⟩ := hok
  have hclass {name : String} (hn : e.AnswersFor nested className fields name) :
      response.body.field? "className" = some (.str name) := by
    obtain ⟨outcome, -, houtcome⟩ := hn
    have hmap : outcome.map (.naming name) = .ok response :=
      (Prod.mk.inj (Option.some.inj (houtcome.symm.trans hresponse))).1
    obtain ⟨plain, -, rfl⟩ := map_eq_ok_iff.mp hmap
    exact Response.className_naming name plain
  exact Value.str.inj (Option.some.inj ((hclass h).symm.trans (hclass h')))

/--
A query that a relation redirects is answered for the class of the first pointer among those where
its `$relatedTo` looks for a record, and for the class that it is addressed to where there are none.
A field that is a pointer itself is not followed: its pointer is a member of the relation, and yet
the query is answered for its own class.
-/
theorem redirection_reads_members (e : Engine) (nested : Serve) (className : String)
    (h : ReadParams.RedirectsThrough fields clause param key) :
    (∀ subject keep, related e.contents param subject = .ok keep →
      keep = subject.any fun p => (e.contents.relatedMembers param).contains p) ∧
    (¬ e.contents.RelatesToOne param →
      e.AnswersFor nested className fields ((e.contents.relatedClass? param).getD className)) ∧
    (e.contents.RelatesToOne param → e.AnswersFor nested className fields className) := by
  have hanswers :
      e.AnswersFor nested className fields ((e.contents.redirected? clause key).getD className) :=
    answersFor_redirected h e nested className
  refine ⟨fun _ _ => Contents.related_eq_of_ok, fun hlisted => ?_, fun hone => ?_⟩
  · rwa [Contents.redirected?_eq_relatedClass? h.related h.keyed hlisted] at hanswers
  · rwa [Contents.redirected?_of_relatesToOne h.related h.keyed hone] at hanswers

end Engine

def memberParam (owner : Pointer) (key : String) : Value :=
  .obj [("key", .str key), ("object", owner.toValue)]

def redirecting (owner : Pointer) (key : String) : Record :=
  [("redirectClassNameForKey", .str key), ("where", .obj [("$relatedTo", memberParam owner key)])]

theorem redirectsThrough_redirecting (owner : Pointer) (key : String) :
    ReadParams.RedirectsThrough (redirecting owner key) (.membersOf owner key)
      (memberParam owner key) key where
  filter := ReadParams.readFilter_of_parse (Clause.parse_membersOf owner key)
  related := rfl
  keyed := rfl
  redirect := rfl

def Run.leading (lead : Value) : Run where
  settings := { objectIdLength := 1 }
  usable := Settings.valid_shortest
  clock := {}
  ids := {}
  client := .send (.create "User" .null) fun _ =>
    .send (.create "Team" (.obj [("lead", lead)])) fun _ => .answer .nothing

namespace Engine

def leadListed : Engine := ((Run.leading (.arr [Pointer.toValue ⟨"User", "1"⟩])).moment 4).engine

def leadSingle : Engine := ((Run.leading (Pointer.toValue ⟨"User", "1"⟩)).moment 4).engine

theorem relationField?_leadListed :
    leadListed.contents.relationField? (memberParam ⟨"Team", "2"⟩ "lead") =
    some (.arr [Pointer.toValue ⟨"User", "1"⟩]) := rfl

theorem relationField?_leadSingle :
    leadSingle.contents.relationField? (memberParam ⟨"Team", "2"⟩ "lead") =
    some (Pointer.toValue ⟨"User", "1"⟩) := rfl

theorem redirection_reads_members_leadListed :
    ReadParams.RedirectsThrough (redirecting ⟨"Team", "2"⟩ "lead") (.membersOf ⟨"Team", "2"⟩ "lead")
      (memberParam ⟨"Team", "2"⟩ "lead") "lead" ∧
    ¬ leadListed.contents.RelatesToOne (memberParam ⟨"Team", "2"⟩ "lead") ∧
    leadListed.contents.relatedMembers (memberParam ⟨"Team", "2"⟩ "lead") = [⟨"User", "1"⟩] ∧
    leadListed.AnswersFor (serve 0) "Item" (redirecting ⟨"Team", "2"⟩ "lead") "User" := by
  have hthrough := redirectsThrough_redirecting ⟨"Team", "2"⟩ "lead"
  have hlisted : ¬ leadListed.contents.RelatesToOne (memberParam ⟨"Team", "2"⟩ "lead") := by
    rw [Contents.RelatesToOne, relationField?_leadListed]
    exact nofun
  have hmembers :
      leadListed.contents.relatedMembers (memberParam ⟨"Team", "2"⟩ "lead") = [⟨"User", "1"⟩] :=
    Contents.relatedMembers_of_field relationField?_leadListed
  obtain ⟨-, hfirst, -⟩ := redirection_reads_members leadListed (serve 0) "Item" hthrough
  have hanswers := hfirst hlisted
  rw [Contents.relatedClass?, hmembers] at hanswers
  exact ⟨hthrough, hlisted, hmembers, hanswers⟩

/-- A team with one pointer in the place of a list: the pointer is a member, and the query does not
go to its class. -/
theorem single_pointer_not_followed :
    ReadParams.RedirectsThrough (redirecting ⟨"Team", "2"⟩ "lead") (.membersOf ⟨"Team", "2"⟩ "lead")
      (memberParam ⟨"Team", "2"⟩ "lead") "lead" ∧
    leadSingle.contents.relatedMembers (memberParam ⟨"Team", "2"⟩ "lead") = [⟨"User", "1"⟩] ∧
    ¬ leadSingle.AnswersFor (serve 0) "Item" (redirecting ⟨"Team", "2"⟩ "lead") "User" := by
  have hthrough := redirectsThrough_redirecting ⟨"Team", "2"⟩ "lead"
  have hone : leadSingle.contents.RelatesToOne (memberParam ⟨"Team", "2"⟩ "lead") := by
    rw [Contents.RelatesToOne, relationField?_leadSingle]
    rfl
  have hmembers :
      leadSingle.contents.relatedMembers (memberParam ⟨"Team", "2"⟩ "lead") = [⟨"User", "1"⟩] :=
    Contents.relatedMembers_of_field relationField?_leadSingle
  refine ⟨hthrough, hmembers, fun h => ?_⟩
  have hanswers := answersFor_redirected hthrough leadSingle (serve 0) "Item"
  rw [Contents.redirected?_of_relatesToOne hthrough.related hthrough.keyed hone] at hanswers
  have hname : "User" = "Item" := h.target_eq hanswers ⟨_, rfl⟩
  exact absurd hname (by decide)

end Engine

end DocumentStore
