import DocumentStore.Engine.Reading
import DocumentStore.Proofs.Subqueries

/-!
What reads answer with: stored records, and none that the class does not hold.
-/

namespace DocumentStore

theorem select_cons {test : Record → Except Fault Bool} {record : Record} {rest found : List Record}
    (h : select test (record :: rest) = .ok found) :
    ∃ keep found', test record = .ok keep ∧ select test rest = .ok found' ∧
      found = if keep then record :: found' else found' := by
  simp only [select, bind_eq_ok_iff] at h
  obtain ⟨keep, ht, found', hs, h⟩ := h
  exact ⟨keep, found', ht, hs, (Except.ok.inj h).symm⟩

theorem sublist_of_select {test : Record → Except Fault Bool} {records found : List Record}
    (h : select test records = .ok found) : found.Sublist records := by
  induction records generalizing found with
  | nil =>
    obtain rfl : [] = found := Except.ok.inj h
    exact .slnil
  | cons record rest ih =>
    obtain ⟨keep, found', -, hs, rfl⟩ := select_cons h
    cases keep with
    | true => exact (ih hs).cons_cons record
    | false => exact (ih hs).cons record

def passes (test : Record → Except Fault Bool) (record : Record) : Bool :=
  (test record).toOption == some true

theorem passes_of_ok {test : Record → Except Fault Bool} {record : Record} {keep : Bool}
    (h : test record = .ok keep) :
    passes test record = keep := by
  rw [passes, h]
  cases keep <;> rfl

theorem passes_iff {test : Record → Except Fault Bool} {record : Record} :
    passes test record = true ↔ test record = .ok true := by
  constructor
  · intro h
    unfold passes at h
    cases ht : test record with
    | error fault =>
      rw [ht] at h
      cases h
    | ok keep =>
      rw [ht] at h
      exact congrArg Except.ok (Option.some.inj (beq_iff_eq.mp h))
  · exact passes_of_ok

theorem eq_filter_of_select {test : Record → Except Fault Bool} {records found : List Record}
    (h : select test records = .ok found) : found = records.filter (passes test) := by
  induction records generalizing found with
  | nil => exact (Except.ok.inj h).symm
  | cons record rest ih =>
    obtain ⟨keep, found', ht, hs, rfl⟩ := select_cons h
    rw [List.filter_cons, passes_of_ok ht, ← ih hs]

theorem select_eq_filter {test : Record → Except Fault Bool} {records : List Record}
    (h : ∀ record ∈ records, ∃ keep, test record = .ok keep) :
    select test records = .ok (records.filter (passes test)) := by
  induction records with
  | nil => rfl
  | cons record rest ih =>
    obtain ⟨keep, ht⟩ := h record List.mem_cons_self
    have hrest := ih fun other ho => h other (List.mem_cons_of_mem record ho)
    rw [select, ht, hrest, List.filter_cons, passes_of_ok ht]
    rfl

theorem sortRecords_nil (records : List Record) : sortRecords [] records = records := by
  unfold sortRecords
  exact List.mergeSort_of_pairwise (List.pairwise_of_forall fun _ _ => rfl)

theorem sublist_of_matching {c : Contents} {className : String} {clause : Clause}
    {found : List Record} (h : matching c className clause = .ok found) :
    found.Sublist (c.records className) := by
  rw [matching_eq] at h
  exact sublist_of_select h

namespace Collection

theorem get?_of_mem {c : Collection} {id : String} {record : Record}
    (h : (id, record) ∈ c.entries) :
    c.get? id = some record := by
  rw [get?_eq]
  have hd := c.distinct
  revert h hd
  induction c.entries with
  | nil => exact fun h => by cases h
  | cons e entries ih =>
    intro h hd
    rw [List.map_cons, List.nodup_cons] at hd
    rcases List.mem_cons.mp h with rfl | h
    · exact if_pos rfl
    · have hne : e.1 ≠ id := fun heq => hd.1 (heq ▸ List.mem_map_of_mem h)
      rw [KeyMap.get?, if_neg hne]
      exact ih h hd.2

theorem mem_entries_iff (c : Collection) (e : String × Record) :
    e ∈ c.entries ↔ c.get? e.1 = some e.2 := by
  constructor
  · exact get?_of_mem
  · intro h
    rw [get?_eq] at h
    exact KeyMap.mem_of_get? h

theorem map_some_records (c : Collection) : c.records.map some = c.ids.map c.get? := by
  simp only [records, ids, List.map_map]
  apply List.map_congr_left
  intro e he
  exact (get?_of_mem he).symm

theorem map_some_filter_records {c : Collection} {test : Record → Bool} {passesId : String → Bool}
    (h : ∀ id record, c.get? id = some record → test record = passesId id) :
    (c.records.filter test).map some = (c.ids.filter passesId).map c.get? := by
  have hentries : ∀ e ∈ c.entries, test e.2 = passesId e.1 := fun e he => h e.1 e.2 (get?_of_mem he)
  rw [records, ids, List.filter_map, List.filter_map, List.map_map, List.map_map,
    List.filter_congr (q := passesId ∘ (·.1)) hentries]
  exact List.map_congr_left fun e he => (get?_of_mem (List.mem_filter.mp he).1).symm

end Collection

namespace Contents

theorem exists_fetch_of_mem {c : Contents} {className : String} {record : Record}
    (h : record ∈ c.records className) :
    ∃ objectId, c.fetch className objectId = some record := by
  obtain ⟨⟨objectId, _⟩, he, rfl⟩ := List.mem_map.mp h
  exact ⟨objectId, Collection.get?_of_mem he⟩

theorem mem_records_of_fetch {c : Contents} {className id : String} {record : Record}
    (h : c.fetch className id = some record) :
    record ∈ c.records className :=
  List.mem_map_of_mem (((c.collection className).mem_entries_iff (id, record)).mpr h)

theorem matching_of_test {c : Contents} {className : String} {clause : Clause}
    {test : Record → Bool}
    (h : ∀ record, clause.holds c (matching c) className record = .ok (test record)) :
    matching c className clause = .ok ((c.records className).filter test) := by
  rw [matching_eq, select_eq_filter fun record _ => ⟨test record, h record⟩]
  exact congrArg Except.ok (List.filter_congr fun record _ => passes_of_ok (h record))

/-- A clause that the ids decide matches the records under those ids, each once and in the order of
creation. -/
theorem matching_of_ids {c : Contents} {className : String} {clause : Clause}
    {passesId : String → Bool}
    (h : ∀ id record, c.fetch className id = some record →
      clause.holds c (matching c) className record = .ok (passesId id)) :
    ∃ found, matching c className clause = .ok found ∧
      found.map some = ((c.collection className).ids.filter passesId).map (c.fetch className) := by
  have hnofault : ∀ record ∈ c.records className, ∃ keep,
      clause.holds c (matching c) className record = .ok keep := by
    intro record hr
    obtain ⟨id, hf⟩ := exists_fetch_of_mem hr
    exact ⟨passesId id, h id record hf⟩
  refine ⟨_, by rw [matching_eq, select_eq_filter hnofault], ?_⟩
  exact Collection.map_some_filter_records fun id record hf => passes_of_ok (h id record hf)

theorem sortedMatches_of_unsorted {params : ReadParams} (h : params.sort = []) (c : Contents)
    (className : String) :
    c.sortedMatches className params = matching c className (params.filter.getD .matchAll) := by
  rw [sortedMatches, h]
  cases matching c className (params.filter.getD .matchAll) with
  | error fault => rfl
  | ok found => rw [Except.map, sortRecords_nil]

theorem readOne_eq_ok {c : Contents} {className objectId : String} {payload : Value}
    {response : Response} (h : c.readOne className objectId payload = .ok response) :
    ∃ params, ReadParams.ofPayload payload = .ok params ∧
      (c.fetch className objectId = none ∧ response = .notFound ∨
        ∃ stored, c.fetch className objectId = some stored ∧
          response = .ok (.obj (c.visible className (includeAll c params.includes stored)))) := by
  simp only [readOne, bind_eq_ok_iff] at h
  obtain ⟨params, hp, h⟩ := h
  refine ⟨params, hp, ?_⟩
  cases hf : c.fetch className objectId with
  | none =>
    rw [hf] at h
    exact .inl ⟨rfl, (Except.ok.inj h).symm⟩
  | some stored =>
    rw [hf] at h
    exact .inr ⟨stored, rfl, (Except.ok.inj h).symm⟩

theorem query_of_error {payload : Value} {fault : Fault}
    (hparams : ReadParams.ofPayload payload = .error fault) (c : Contents) (settings : Settings)
    (className : String) : c.query settings className payload = .error fault := by
  rw [query, hparams]
  rfl

theorem query_of_matching_error {c : Contents} {className : String} {payload : Value}
    {params : ReadParams} {fault : Fault} (hparams : ReadParams.ofPayload payload = .ok params)
    (hfault : c.sortedMatches (c.targetClass className params) params = .error fault)
    (settings : Settings) :
    c.query settings className payload = .error fault := by
  rw [query, hparams]
  show (c.sortedMatches (c.targetClass className params) params >>= _) = _
  rw [hfault]
  rfl

theorem query_of_matches {c : Contents} {className : String} {payload : Value} {params : ReadParams}
    {found : List Record} (hparams : ReadParams.ofPayload payload = .ok params)
    (hfound : c.sortedMatches (c.targetClass className params) params = .ok found)
    (settings : Settings) :
    c.query settings className payload =
      let target := c.targetClass className params
      let body : Record :=
        if params.count then [("count", .num (.ofNat found.length)), ("results", .arr [])]
        else [("results", .arr ((c.page settings target params found).map .obj))]
      .ok (.ok (.obj (
        if params.redirectKey.isSome then ("className", .str target) :: body else body))) := by
  unfold query
  rw [hparams]
  show (c.sortedMatches (c.targetClass className params) params >>= _) = _
  rw [hfound]
  rfl

theorem query_eq_ok {c : Contents} {settings : Settings} {className : String} {payload : Value}
    {response : Response} (h : c.query settings className payload = .ok response) :
    ∃ params results, ReadParams.ofPayload payload = .ok params ∧ response.status = 200 ∧
      response.body.field? "results" = some (.arr results) ∧
      ∀ item ∈ results, ∃ objectId stored,
        c.fetch (c.targetClass className params) objectId = some stored ∧
        item = .obj
          (c.visible (c.targetClass className params) (includeAll c params.includes stored)) := by
  simp only [query, bind_eq_ok_iff] at h
  obtain ⟨params, hp, found, hs, h⟩ := h
  have hfound (record : Record) (hr : record ∈ found) :
      ∃ objectId, c.fetch (c.targetClass className params) objectId = some record := by
    unfold sortedMatches at hs
    cases hm : matching c (c.targetClass className params) (params.filter.getD .matchAll) with
    | error fault =>
      rw [hm] at hs
      cases hs
    | ok matches' =>
      rw [hm] at hs
      obtain rfl : sortRecords params.sort matches' = found := Except.ok.inj hs
      have hmem : record ∈ matches' := (List.mergeSort_perm _ _).mem_iff.mp hr
      exact exists_fetch_of_mem ((sublist_of_matching hm).subset hmem)
  have hr := Except.ok.inj h
  by_cases hcount : params.count = true
  · refine ⟨params, [], hp, by rw [← hr]; rfl, ?_, fun _ hi => absurd hi List.not_mem_nil⟩
    rw [← hr, if_pos hcount]
    split <;> rfl
  · refine ⟨params, (c.page settings (c.targetClass className params) params found).map .obj, hp,
      by rw [← hr]; rfl, ?_, ?_⟩
    · rw [← hr, if_neg hcount]
      split <;> rfl
    · intro item hi
      obtain ⟨shown, hshown, rfl⟩ := List.mem_map.mp hi
      obtain ⟨stored, hstored, rfl⟩ := List.mem_map.mp hshown
      obtain ⟨objectId, hf⟩ := hfound stored (List.mem_of_mem_drop (List.mem_of_mem_take hstored))
      exact ⟨objectId, stored, hf, rfl⟩

end Contents

end DocumentStore
