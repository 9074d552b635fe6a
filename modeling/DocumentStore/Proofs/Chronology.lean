import DocumentStore.Proofs.Census
import DocumentStore.Proofs.Comparing
import DocumentStore.Proofs.Lifetime
import DocumentStore.Proofs.Paging
import DocumentStore.Proofs.Pointing
import Mathlib.Data.List.Sort

/-!
The time of creation, as reads see it. Stamps are read back as the times they were written for, and
as texts they have the order of these times. So it makes no difference that sorting takes the stamps
of records for texts, and that the operators take them for instants beside a tagged date.
-/

namespace DocumentStore

section Stamps

variable {t u : Int}

theorem parse?_stampOf (ht : InRange t) : Instant.parse? (stampOf t) = some (.ofMillis t) :=
  Instant.parse?_format_ofMillis ht

theorem dateInstant?_ofInstant (ht : InRange t) :
    (Value.ofInstant (.ofMillis t)).dateInstant? = some (.ofMillis t) := by
  have htagged : (Value.ofInstant (.ofMillis t)).isDate = true := rfl
  have hiso : (Value.ofInstant (.ofMillis t)).textField? "iso" = some (stampOf t) := rfl
  rw [Value.dateInstant?, if_pos htagged, hiso, Option.bind_some, parse?_stampOf ht]

theorem bytes_stampOf_lt_iff (ht : InRange t) (hu : InRange u) :
    Instant.bytes (stampOf t) < Instant.bytes (stampOf u) ↔ t < u := by
  constructor
  · intro hlt
    by_contra hge
    rcases Int.lt_or_eq_of_le (Int.not_lt.mp hge) with hut | rfl
    · exact List.lt_asymm hlt (Instant.bytes_format_lt hu ht hut)
    · exact List.lt_irrefl _ hlt
  · exact Instant.bytes_format_lt ht hu

theorem stampOf_lt (ht : InRange t) (hu : InRange u) (h : t < u) : stampOf t < stampOf u := by
  have hdigits : Instant.Ascends (id : Char → Char) := by
    simp only [Instant.Ascends]
    decide
  have hwritten := Instant.map_written_lt hdigits (Instant.numbers_lt ht h)
    (Instant.fits_numbers ht) (Instant.fits_numbers hu)
  rw [List.map_id, List.map_id] at hwritten
  rw [String.lt_iff, stampOf, stampOf, Instant.format, Instant.format, String.toList_ofList,
    String.toList_ofList, Instant.formatChars_ofMillis ht, Instant.formatChars_ofMillis hu]
  exact hwritten

/-- As texts, stamps have the order of the times that they were written for. -/
theorem compare_stampOf (ht : InRange t) (hu : InRange u) :
    compare (stampOf t) (stampOf u) = compare t u := by
  have hless (a b : String) : compare a b = .lt ↔ a < b := compareOfLessAndEq_eq_lt
  rcases Int.lt_trichotomy t u with h | rfl | h
  · rw [Int.compare_eq_lt.mpr h, hless]
    exact stampOf_lt ht hu h
  · rw [Int.compare_eq_eq.mpr rfl, Std.compare_self]
  · rw [Int.compare_eq_gt.mpr h, Std.OrientedCmp.gt_iff_lt, hless]
    exact stampOf_lt hu ht h

theorem compare_instants (t u : Int) :
    (Instant.ofMillis t).compare (.ofMillis u) = compare t u := by
  rcases Int.lt_trichotomy t u with h | rfl | h
  · rw [← Instant.swap_compare, (Instant.compare_ofMillis u t).mpr h, Int.compare_eq_lt.mpr h]
    rfl
  · rw [Int.compare_eq_eq.mpr rfl, Instant.compare_eq_eq_iff]
  · rw [(Instant.compare_ofMillis t u).mpr h, Int.compare_eq_gt.mpr h]

end Stamps

def Operator.accepts? : Operator → Option (Ordering → Bool)
  | .lt => some Ordering.isLT
  | .lte => some Ordering.isLE
  | .gt => some Ordering.isGT
  | .gte => some Ordering.isGE
  | .eq => some Ordering.isEq
  | _ => none

theorem Operator.answers_of_instants {op : Operator} {accepts : Ordering → Bool}
    (hop : op.accepts? = some accepts) {text : String} {date : Value} {t u : Instant}
    (ht : Instant.parse? text = some t) (hu : date.dateInstant? = some u) :
    op.Answers (.str text) date (accepts (t.compare u)) := by
  have hdate : date.isDate = true := Value.isDate_of_dateInstant? hu
  have htext : (Value.str text).instant? = some t := ht
  have hinstant : date.instant? = some u := by
    cases date with
    | obj fields => exact hu
    | _ => cases hdate
  have htagged : ((Value.str text).isDate || date.isDate) = true := by rw [hdate, Bool.or_true]
  have horder : compareField? (some (.str text)) date = some (t.compare u) :=
    Value.compareField?_eq_some_iff.mpr (.instants htext hinstant htagged)
  have hequal : fieldEquals (some (.str text)) (some date) = (t.compare u).isEq := by
    rw [Bool.eq_iff_iff, Value.fieldEquals_instants htext hinstant htagged,
      Value.sameObjectId_eq_false rfl, Ordering.isEq_iff_eq_eq, Instant.compare_eq_eq_iff]
    simp
  intro contents find options
  cases op with
  | eq =>
    obtain rfl := Option.some.inj hop
    exact congrArg Except.ok hequal
  | lt | lte | gt | gte =>
    obtain rfl := Option.some.inj hop
    simp only [Operator.holds, horder]
    cases t.compare u <;> rfl
  | _ => cases hop

theorem compareBy_of_texts {field a b : String} {record record' : Record}
    (ha : KeyMap.get? record field = some (.str a))
    (hb : KeyMap.get? record' field = some (.str b)) :
    compareBy [⟨field, false⟩] record record' = compare a b := by
  rw [compareBy, compareBy, ha, hb]
  exact Ordering.then_eq ..

theorem not_pair_sublist_swap {α : Type} {l : List α} {a b : α} (hl : l.Nodup)
    (hab : [a, b].Sublist l) :
    ¬ [b, a].Sublist l := by
  induction l with
  | nil => cases hab
  | cons c l ih =>
    intro hba
    obtain ⟨hc, hl⟩ := List.nodup_cons.mp hl
    cases hab with
    | cons _ hab =>
      cases hba with
      | cons _ hba => exact ih hl hab hba
      | cons_cons _ hba => exact hc (hab.subset (by simp))
    | cons_cons _ hab =>
      cases hba with
      | cons _ hba => exact hc (hba.subset (by simp))
      | cons_cons _ hba => exact hc (hba.subset (by simp))

namespace Contents

variable {c : Contents} {className field : String}

theorem Lists.of_pair {params : ReadParams} {ids : List String} (h : c.Lists className params ids)
    {id id' : String} (hpair : [id, id'].Sublist ids) {stored stored' : Record}
    (hf : c.fetch className id = some stored) (hf' : c.fetch className id' = some stored') :
    compareBy params.sort stored stored' = .lt ∨
      compareBy params.sort stored stored' = .eq ∧
      ¬ [id', id].Sublist (c.collection className).ids := by
  have hsorted := List.pairwise_iff_forall_sublist.mp h.sorted hpair
  obtain ⟨first, second, hs, hs', hle⟩ := hsorted
  obtain rfl : first = stored := Option.some.inj (hs.symm.trans hf)
  obtain rfl : second = stored' := Option.some.inj (hs'.symm.trans hf')
  cases horder : compareBy params.sort first second with
  | gt => exact absurd horder hle
  | lt => exact .inl rfl
  | eq =>
    refine .inr ⟨rfl, fun hcreated => ?_⟩
    have htie := Std.OrientedCmp.eq_symm horder
    have hback :=
      h.stable id' id _ _ hf' hf htie (hpair.subset (by simp)) (hpair.subset (by simp)) hcreated
    exact not_pair_sublist_swap h.nodup hpair hback

theorem find_testing {op : Operator} {accepts : Ordering → Bool} (hop : op.accepts? = some accepts)
    (hfield : PlainName field) (param : Value) :
    ∃ found, c.find className (testing op field param) = .ok found ∧
      ∀ record ∈ c.records className, ∀ v answer, KeyMap.get? record field = some v →
        op.Answers v param answer →
        (record ∈ found ↔ answer = true) := by
  let options := optionsOf [.operator op param]
  have hnofault (record : Record) :
      ∃ keep, op.holds c (matching c) (KeyMap.get? record field) param options = .ok keep := by
    cases op with
    | lt | lte | gt | gte | eq => exact ⟨_, rfl⟩
    | _ => cases hop
  choose test htest using hnofault
  refine ⟨(c.records className).filter test, ?_, fun record hr v answer hv hanswers => ?_⟩
  · rw [find, Clause.parse_testing hfield]
    exact matching_of_test fun record => (Clause.holds_single ..).trans (htest record)
  · have hholds := htest record
    rw [hv, hanswers] at hholds
    rw [List.mem_filter, ← Except.ok.inj hholds]
    exact and_iff_right hr

end Contents

theorem plainName_createdAt : PlainName "createdAt" := ⟨by decide, by decide⟩

namespace Run

variable {r : Run} {k k' n : Nat} {className id id' text : String} {record : Record}

def reading (r : Run) (k : Nat) : Int := (r.moment k).engine.clock.read.1

theorem Creates.createdAt {made : Record} (h : r.Creates k className id made) :
    KeyMap.get? made "createdAt" = some (.str (stampOf (r.reading k))) := by
  obtain ⟨draft, shape⟩ := Moment.stored_of_born h.absent h.stored
  exact shape.createdAt

theorem KeptSince.survives (h : r.KeptSince className id text k n) :
    r.Survives className id k n := by
  obtain ⟨hk, ⟨made, hmade, -⟩, hkept⟩ := h
  have hlisted (j : Nat) (hkj : k < j) (hjn : j ≤ n) : id ∈ (r.moment j).ids className := by
    obtain ⟨kept, hf, -⟩ := hkept j hkj hjn
    exact Moment.mem_ids_iff_fetch.mpr ⟨kept, hf⟩
  obtain ⟨fields, record, response, hcommits, -⟩ := hmade.commits
  refine ⟨hk, ⟨Moment.creates_of_commits hcommits, ?_, hlisted (k + 1) (by omega) (by omega)⟩,
    fun j hkj hjn => ?_⟩
  · intro hmem
    obtain ⟨found, hf⟩ := Moment.mem_ids_iff_fetch.mp hmem
    cases hmade.absent.symm.trans hf
  · have hnext := hlisted (j + 1) (by omega) (by omega)
    rw [moment_succ] at hnext
    constructor
    · intro hclears
      rw [Moment.ids, hclears.step_engine] at hnext
      cases hnext
    · intro hdeleted
      rw [(Moment.died_of_deleted? hdeleted).2] at hnext
      simp at hnext

theorem Survives.eq (h : r.Survives className id k n) (h' : r.Survives className id k' n) :
    k = k' := by
  obtain ⟨births, hb⟩ := r.exists_births n className
  have hnodup : (births.map (·.2)).Nodup := by
    rw [hb.ids]
    exact ((r.moment n).engine.contents.collection className).distinct
  have heq :=
    List.inj_on_of_nodup_map hnodup ((hb.mem_iff k id).mpr h) ((hb.mem_iff k' id).mpr h') rfl
  exact congrArg Prod.fst heq

theorem Survives.id_eq (h : r.Survives className id k n) (h' : r.Survives className id' k n) :
    id = id' := by
  obtain ⟨births, hb⟩ := r.exists_births n className
  have hnodup : (births.map (·.1)).Nodup := List.pairwise_map.mpr (hb.ordered.imp Nat.ne_of_lt)
  have heq :=
    List.inj_on_of_nodup_map hnodup ((hb.mem_iff k id).mpr h) ((hb.mem_iff k id').mpr h') rfl
  exact congrArg Prod.snd heq

theorem Survives.pair_sublist (h : r.Survives className id k n) (h' : r.Survives className id' k' n)
    (hk : k < k') :
    [id, id'].Sublist ((r.moment n).ids className) := by
  obtain ⟨births, hb⟩ := r.exists_births n className
  have hborn : [(k, id), (k', id')].Subperm births := by
    refine List.subperm_of_subset (by simp [hk.ne]) ?_
    simp [hb.mem_iff, h, h']
  have hasymm : Std.Antisymm fun a b : Nat × String => a.1 < b.1 :=
    ⟨fun a b hab hba => absurd hab hba.asymm⟩
  have hsublist := List.sublist_of_subperm_of_pairwise hborn (List.pairwise_pair.mpr hk) hb.ordered
  rw [← hb.ids]
  exact hsublist.map (·.2)

theorem exists_survives (hf : r.fetch n className id = some record) :
    ∃ k, r.Survives className id k n ∧
      KeyMap.get? record "createdAt" = some (.str (stampOf (r.reading k))) := by
  obtain ⟨-, text, k, hrecord, hkept⟩ := r.keptSince_of_fetch n hf
  have hsurvives := hkept.survives
  obtain ⟨-, ⟨made, hmade, hidentified⟩, -⟩ := hkept
  refine ⟨k, hsurvives, ?_⟩
  rw [hrecord.createdAt, ← hidentified.createdAt, hmade.createdAt]

theorem Survives.createdAt (h : r.Survives className id k n)
    (hf : r.fetch n className id = some record) :
    KeyMap.get? record "createdAt" = some (.str (stampOf (r.reading k))) := by
  obtain ⟨k', h', hstamp⟩ := exists_survives hf
  rwa [h.eq h']

/-- A record was made at an earlier reading of the clock than another one, or at the same reading in
an earlier step. -/
def MadeBefore (r : Run) (n : Nat) (className id id' : String) : Prop :=
  ∀ k k', r.Survives className id k n → r.Survives className id' k' n → InRange (r.reading k) →
    InRange (r.reading k') →
    r.reading k < r.reading k' ∨ r.reading k = r.reading k' ∧ k < k'

theorem pairwise_madeBefore {params : ReadParams} {ids : List String}
    (hsort : params.sort = SortKey.parseOrder "createdAt")
    (h : (r.moment n).engine.contents.Lists className params ids) :
    ids.Pairwise (r.MadeBefore n className) := by
  refine List.pairwise_iff_forall_sublist.mpr fun {id id'} hpair k k' hk hk' hrange hrange' => ?_
  obtain ⟨stored, hf, -⟩ := (h.mem_iff id).mp (hpair.subset (by simp))
  obtain ⟨stored', hf', -⟩ := (h.mem_iff id').mp (hpair.subset (by simp))
  have hkeys : params.sort = [⟨"createdAt", false⟩] := hsort.trans (by decide)
  have horder : compareBy params.sort stored stored' = compare (r.reading k) (r.reading k') := by
    rw [hkeys, compareBy_of_texts (hk.createdAt hf) (hk'.createdAt hf'),
      compare_stampOf hrange hrange']
  rcases h.of_pair hpair hf hf' with hlt | ⟨htie, hcreated⟩
  · exact .inl (Int.compare_eq_lt.mp (horder.symm.trans hlt))
  · refine .inr ⟨Int.compare_eq_eq.mp (horder.symm.trans htie), ?_⟩
    rcases Nat.lt_trichotomy k k' with hlt | rfl | hgt
    · exact hlt
    · have hne := List.pairwise_iff_forall_sublist.mp h.nodup hpair
      exact absurd (hk.id_eq hk') hne
    · exact absurd (hk'.pair_sublist hk hgt) hcreated

/--
The time of creation means the same in every view. The text of a time within the years 0 to 9999 is
read back as that time, alone and in a tagged date, and the bytes of such texts have the order of
the times. A stored record has for its time of creation the reading of the clock at the step that
made it. A listing by that field has the records by those readings, and by the steps where the
readings are the same; and an operator that goes by an order finds, beside a tagged date in whatever
offset, the records of which the reading compares in this way with the instant of the date.
-/
theorem creation_times_agree (r : Run) (n : Nat) (className : String) :
    (∀ t u, InRange t → InRange u →
      Instant.parse? (stampOf t) = some (.ofMillis t) ∧
      (Value.ofInstant (.ofMillis t)).dateInstant? = some (.ofMillis t) ∧
      (Instant.bytes (stampOf t) < Instant.bytes (stampOf u) ↔ t < u) ∧
      (Instant.ofMillis t).compare (.ofMillis u) = compare t u) ∧
    (∀ id record, r.fetch n className id = some record →
      ∃ k, r.Survives className id k n ∧
        KeyMap.get? record "createdAt" = some (.str (stampOf (r.reading k)))) ∧
    (∀ payload params target found, payload.field? "order" = some (.str "createdAt") →
      ReadParams.ofPayload payload = .ok params →
      (r.moment n).engine.contents.targetClass className params = target →
      (r.moment n).engine.contents.sortedMatches target params = .ok found →
      ∃ ids, (r.moment n).engine.contents.Lists target params ids ∧
        found.map some = ids.map (r.fetch n target) ∧
        ids.Pairwise (r.MadeBefore n target)) ∧
    ∀ op accepts date u, op.accepts? = some accepts → date.dateInstant? = some u →
      ∃ found,
        (r.moment n).engine.contents.find className (testing op "createdAt" date) = .ok found ∧
        ∀ id record k, r.fetch n className id = some record → r.Survives className id k n →
          InRange (r.reading k) →
          (record ∈ found ↔ accepts ((Instant.ofMillis (r.reading k)).compare u) = true) := by
  refine ⟨fun t u ht hu => ?_, fun id record hf => exists_survives hf, ?_,
    fun op accepts date u hop hu => ?_⟩
  · exact ⟨parse?_stampOf ht, dateInstant?_ofInstant ht, bytes_stampOf_lt_iff ht hu,
      compare_instants t u⟩
  · intro payload params target found horder hparams htarget hfound
    obtain ⟨ids, hlists, hids⟩ := Contents.exists_lists hfound
    have hsort := (ReadParams.ofPayload_eq_ok hparams).2.2.1
    rw [horder] at hsort
    exact ⟨ids, hlists, hids, pairwise_madeBefore hsort hlists⟩
  · obtain ⟨found, hfound, hmem⟩ := Contents.find_testing hop plainName_createdAt date
    refine ⟨found, hfound, fun id record k hf hk hrange => ?_⟩
    have hanswers := Operator.answers_of_instants hop (parse?_stampOf hrange) hu
    exact hmem record (Contents.mem_records_of_fetch hf) _ _ (hk.createdAt hf) hanswers

/-- Three items, of which the clock has set the second and the third back to one time. -/
def delayed : Run where
  settings := { objectIdLength := 1 }
  usable := Settings.valid_shortest
  clock := { scheduled := [2000, 1000, 1000], standing := 0 }
  ids := {}
  client := .send (.create "Item" .null) fun _ => .send (.create "Item" .null) fun _ =>
    .send (.create "Item" .null) fun _ => .answer .nothing

def oneSecond : Value := .obj [("__type", .str "Date"), ("iso", .str "1970-01-01T01:00:01+01:00")]

theorem survives_delayed : delayed.Survives "Item" "2" 3 6 := by
  refine ⟨by decide, ⟨by decide +kernel, by decide +kernel, by decide +kernel⟩, fun j h h' => ?_⟩
  have hj : j = 4 ∨ j = 5 := by omega
  rcases hj with rfl | rfl
  · exact ⟨by decide +kernel, by decide +kernel⟩
  · exact ⟨by decide +kernel, by decide +kernel⟩

theorem creation_times_agree_delayed :
    (InRange 1000 ∧ InRange 2000 ∧ Instant.bytes (stampOf 1000) < Instant.bytes (stampOf 2000)) ∧
    (∃ (found : List Record) (ids : List String), "1" ∈ ids ∧
      (delayed.moment 6).engine.contents.sortedMatches "Item" { sort := [⟨"createdAt", false⟩] } =
        .ok found ∧
      found.map some = ids.map (delayed.fetch 6 "Item") ∧
      ids.Pairwise (delayed.MadeBefore 6 "Item")) ∧
    ∃ found record,
      (delayed.moment 6).engine.contents.find "Item" (testing .gte "createdAt" oneSecond) =
        .ok found ∧
      delayed.fetch 6 "Item" "2" = some record ∧ delayed.Survives "Item" "2" 3 6 ∧
      InRange (delayed.reading 3) ∧
      record ∈ found := by
  obtain ⟨hstamps, -, hlists, hcompares⟩ := delayed.creation_times_agree 6 "Item"
  have hthousand : InRange 1000 := by decide
  have htwothousand : InRange 2000 := by decide
  have hmatching := matching_matchAll (delayed.moment 6).engine.contents "Item"
  have hsorted :
      (delayed.moment 6).engine.contents.sortedMatches "Item" { sort := [⟨"createdAt", false⟩] } =
      .ok (sortRecords [⟨"createdAt", false⟩] _) := congrArg (Except.map (sortRecords _)) hmatching
  obtain ⟨ids, hids, hfound, hpairwise⟩ :=
    hlists (.obj [("order", .str "createdAt")]) _ "Item" _ rfl rfl rfl hsorted
  have hfirst : ∃ record, (delayed.moment 6).engine.contents.fetch "Item" "1" = some record :=
    ⟨_, rfl⟩
  have hsecond : ∃ record, delayed.fetch 6 "Item" "2" = some record := ⟨_, rfl⟩
  obtain ⟨first, hfirst⟩ := hfirst
  obtain ⟨record, hrecord⟩ := hsecond
  have hone : oneSecond.dateInstant? = some (.ofMillis 1000) := by decide +kernel
  obtain ⟨late, hlate, hmem⟩ := hcompares .gte _ oneSecond _ rfl hone
  have hreading : delayed.reading 3 = 1000 := by decide +kernel
  have hrange : InRange (delayed.reading 3) := hreading ▸ hthousand
  refine ⟨⟨hthousand, htwothousand,
    (hstamps 1000 2000 hthousand htwothousand).2.2.1.mpr (by decide)⟩,
      ⟨_, ids, (hids.mem_iff "1").mpr ⟨first, hfirst, rfl⟩, hsorted, hfound, hpairwise⟩,
    ⟨late, record, hlate, hrecord, survives_delayed, hrange,
      (hmem "2" record 3 hrecord survives_delayed hrange).mpr ?_⟩⟩
  rw [hreading]
  decide

end Run

end DocumentStore
