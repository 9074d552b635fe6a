import DocumentStore.Proofs.Reading
import DocumentStore.Proofs.Run

/-!
The records of a class, counted along a run. Whatever hooks do in between, the class lists the
records that a create has made and no delete has removed since the last clear, in the order of the
creates.
-/

namespace DocumentStore

namespace Collection

theorem ids_insert_of_mem {c : Collection} {id : String} (record : Record) (h : id ∈ c.ids) :
    (c.insert id record).ids = c.ids := by
  unfold insert
  rw [dif_pos h]
  exact map_fst_replaceIn id record c.entries

theorem ids_insert_of_notMem {c : Collection} {id : String} (record : Record) (h : id ∉ c.ids) :
    (c.insert id record).ids = c.ids ++ [id] := by
  unfold insert
  rw [dif_neg h]
  simp only [ids, List.map_append, List.map_cons, List.map_nil]

theorem ids_erase (c : Collection) (id : String) : (c.erase id).ids = c.ids.filter (· ≠ id) := by
  simp only [ids, erase, List.filter_map, Function.comp_def]

theorem length_ids_erase {c : Collection} {id : String} (h : id ∈ c.ids) :
    (c.ids.filter (· ≠ id)).length + 1 = c.ids.length := by
  have hd : c.ids.Nodup := c.distinct
  have herase : c.ids.erase id = c.ids.filter (· ≠ id) := by
    rw [hd.erase_eq_filter]
    exact List.filter_congr fun x _ => by by_cases hx : x = id <;> simp [hx]
  rw [← herase, List.length_erase_of_mem h]
  exact Nat.sub_add_cancel (List.length_pos_of_mem h)

end Collection

namespace Contents

theorem collection_hide (c : Contents) (className other : String) (fields : List String) :
    (c.hide className fields).collection other = c.collection other := by
  simp only [collection, collection?, classes_hide]

theorem ids_insert (c : Contents) (className objectId other : String) (record : Record) :
    ((c.insert className objectId record).collection other).ids =
      if other = className then ((c.collection className).insert objectId record).ids
      else (c.collection other).ids := by
  rw [insert, collection_setCollection]
  split <;> rfl

theorem ids_erase (c : Contents) (className objectId other : String) :
    ((c.erase className objectId).collection other).ids =
      if other = className then ((c.collection className).erase objectId).ids
      else (c.collection other).ids := by
  rw [erase, collection_setCollection]
  split <;> rfl

end Contents

namespace Moment

variable {m : Moment} {className : String}

def reply? : Moment → Option (Write × Outcome)
  | ⟨e, .answer answer, (write, _) :: _⟩ =>
    (write.finish answer e).map fun (outcome, _) => (write, outcome)
  | _ => none

def creates (m : Moment) (className : String) : Bool :=
  match m.reply? with
  | some (.create name _, .ok response) => name == className && response.status == 201
  | _ => false

def deleted? (m : Moment) (className : String) : Option String :=
  match m.reply? with
  | some (.delete name id _, .ok response) =>
    if name == className && response.status == 200 then some id else none
  | _ => none

def ids (m : Moment) (className : String) : List String :=
  (m.engine.contents.collection className).ids

instance (m : Moment) : Decidable m.Clears :=
  match h : m.script with
  | .clear next => isTrue ⟨next, h⟩
  | .answer _ | .send .. | .register .. | .unregister .. | .note .. =>
    isFalse fun ⟨_, hc⟩ => by cases h.symm.trans hc

theorem Commits.reply?_eq {write : Write} {record : Record} {response : Response}
    (h : m.Commits write record response) : m.reply? = some (write, .ok response) := by
  obtain ⟨e, script, waiting⟩ := m
  obtain ⟨answer, sender, rest, hs, hw, ha⟩ := h.resumes
  obtain rfl : script = .answer answer := hs
  obtain rfl : waiting = (write, sender) :: rest := hw
  have hc := h.commit
  rcases ha with rfl | ⟨rfl, rfl⟩
  · simp only [reply?, Write.finish, hc, Option.map_some]
  · simp only [reply?, Write.finish, hc, Option.map_some]

theorem exists_commits_of_reply? {write : Write} {response : Response}
    (h : m.reply? = some (write, .ok response)) (hs : response.isSuccess = true) :
    ∃ record, m.Commits write record response := by
  obtain ⟨e, script, waiting⟩ := m
  cases script with
  | answer answer =>
    cases waiting with
    | nil => cases h
    | cons frame waiting =>
      obtain ⟨write', sender⟩ := frame
      simp only [reply?, Option.map_eq_some_iff, Prod.mk.injEq] at h
      obtain ⟨⟨outcome, e'⟩, hf, rfl, rfl⟩ := h
      have hstep := step_of_next (next?_of_finish hf sender waiting)
      have committed (record : Record) (hc : write'.commit record e = some (.ok response, e'))
          (ha : answer = .replacement record ∨ answer = .nothing ∧ record = write'.call.object) :
          ∃ record,
            Commits ⟨e, .answer answer, (write', sender) :: waiting⟩ write' record response :=
        ⟨record, ⟨answer, sender, waiting, rfl, rfl, ha⟩, by rw [hstep]; exact hc, hs⟩
      cases answer with
      | replacement record => exact committed record hf (.inl rfl)
      | nothing => exact committed write'.call.object hf (.inr ⟨rfl, rfl⟩)
      | rejection value => simp [Write.finish] at hf
  | send | register | unregister | clear | note => cases h

theorem reply?_of_clears (h : m.Clears) : m.reply? = none := by
  obtain ⟨e, script, waiting⟩ := m
  obtain ⟨next, rfl⟩ : ∃ next, script = .clear next := h
  rfl

theorem creates_iff : m.creates className = true ↔
    ∃ fields response, m.reply? = some (.create className fields, .ok response) ∧
      response.status = 201 := by
  unfold creates
  split
  · rename_i name fields response h
    simp only [h, Bool.and_eq_true, beq_iff_eq, Option.some.injEq, Prod.mk.injEq,
      Write.create.injEq, Except.ok.injEq]
    constructor
    · rintro ⟨rfl, hs⟩
      exact ⟨fields, response, ⟨⟨rfl, rfl⟩, rfl⟩, hs⟩
    · rintro ⟨_, _, ⟨⟨rfl, -⟩, rfl⟩, hs⟩
      exact ⟨rfl, hs⟩
  · rename_i hne
    constructor
    · exact nofun
    · rintro ⟨fields, response, h, -⟩
      exact absurd h (hne className fields response)

theorem deleted?_eq_some_iff {objectId : String} : m.deleted? className = some objectId ↔
    ∃ stored response, m.reply? = some (.delete className objectId stored, .ok response) ∧
      response.status = 200 := by
  unfold deleted?
  split
  · rename_i name id stored response h
    simp only [h, Option.ite_none_right_eq_some, Bool.and_eq_true, beq_iff_eq, Option.some.injEq,
      Prod.mk.injEq, Write.delete.injEq, Except.ok.injEq]
    constructor
    · rintro ⟨⟨rfl, hs⟩, rfl⟩
      exact ⟨stored, response, ⟨⟨rfl, rfl, rfl⟩, rfl⟩, hs⟩
    · rintro ⟨_, _, ⟨⟨rfl, rfl, -⟩, rfl⟩, hs⟩
      exact ⟨⟨rfl, hs⟩, rfl⟩
  · rename_i hne
    constructor
    · exact nofun
    · rintro ⟨stored, response, h, -⟩
      exact absurd h (hne className objectId stored response)

/-- What one step does to the ids of a class, and what it answers to the creates and deletes of the
class. -/
inductive Turn (m : Moment) (className : String) : Prop where
  | cleared (clears : m.Clears) (creates : m.creates className = false)
      (deleted : m.deleted? className = none) (ids : m.step.ids className = [])
  | born (id : String) (clears : ¬ m.Clears) (creates : m.creates className = true)
      (deleted : m.deleted? className = none)
      (fresh : id ∉ m.ids className) (ids : m.step.ids className = m.ids className ++ [id])
  | died (id : String) (clears : ¬ m.Clears) (creates : m.creates className = false)
      (deleted : m.deleted? className = some id) (stored : id ∈ m.ids className)
      (ids : m.step.ids className = (m.ids className).filter (· ≠ id))
  | kept (clears : ¬ m.Clears) (creates : m.creates className = false)
      (deleted : m.deleted? className = none) (ids : m.step.ids className = m.ids className)

theorem mem_ids_iff_fetch {objectId : String} :
    objectId ∈ m.ids className ↔ ∃ record, m.fetch className objectId = some record :=
  Collection.mem_ids_iff _ _

theorem creates_of_commits {fields record : Record} {response : Response}
    (h : m.Commits (.create className fields) record response) : m.creates className = true := by
  obtain ⟨_, _, _, _, -, -, -, -, hr⟩ := h.create
  exact creates_iff.mpr ⟨fields, response, h.reply?_eq, by rw [hr]; rfl⟩

theorem deleted?_of_commits {objectId : String} {stored record : Record} {response : Response}
    (h : m.Commits (.delete className objectId stored) record response) :
    m.deleted? className = some objectId := by
  obtain ⟨_, -, -, hr⟩ := h.delete
  exact deleted?_eq_some_iff.mpr ⟨stored, response, h.reply?_eq, by rw [hr]; rfl⟩

theorem deleted?_of_creates (h : m.creates className = true) : m.deleted? className = none := by
  obtain ⟨fields, response, hr, -⟩ := creates_iff.mp h
  rw [deleted?, hr]

theorem not_clears_of_reply? {write : Write} {outcome : Outcome}
    (h : m.reply? = some (write, outcome)) : ¬ m.Clears :=
  fun hc => by cases h.symm.trans (reply?_of_clears hc)

theorem born_of_creates (h : m.creates className = true) :
    ∃ id, id ∉ m.ids className ∧ m.step.ids className = m.ids className ++ [id] := by
  obtain ⟨fields, response, hr, hs⟩ := creates_iff.mp h
  obtain ⟨record, hw⟩ := exists_commits_of_reply? hr (by rw [Response.isSuccess, hs]; rfl)
  obtain ⟨draft, id, ids, stored, -, hid, -, he, -⟩ := hw.create
  have hfresh : id ∉ m.ids className := (IdSupply.next?_eq_some hid).1
  refine ⟨id, hfresh, ?_⟩
  rw [Moment.ids, he, Contents.ids_insert, if_pos rfl, Contents.collection_hide]
  exact Collection.ids_insert_of_notMem stored hfresh

theorem died_of_deleted? {id : String} (h : m.deleted? className = some id) :
    id ∈ m.ids className ∧ m.step.ids className = (m.ids className).filter (· ≠ id) := by
  obtain ⟨previous, response, hr, hs⟩ := deleted?_eq_some_iff.mp h
  obtain ⟨record, hw⟩ := exists_commits_of_reply? hr (by rw [Response.isSuccess, hs]; rfl)
  obtain ⟨current, hf, he, -⟩ := hw.delete
  refine ⟨mem_ids_iff_fetch.mpr ⟨current, hf⟩, ?_⟩
  rw [Moment.ids, he, Contents.ids_erase, if_pos rfl]
  exact Collection.ids_erase _ id

theorem kept_of_commits {write : Write} {record : Record} {response : Response}
    (h : m.Commits write record response) (hc : m.creates className = false)
    (hd : m.deleted? className = none) :
    m.step.ids className = m.ids className := by
  cases write with
  | create name fields =>
    obtain ⟨draft, id, ids, stored, -, -, -, he, -⟩ := h.create
    have hname : className ≠ name := by
      rintro rfl
      cases hc.symm.trans (creates_of_commits h)
    rw [Moment.ids, he, Contents.ids_insert, if_neg hname, Contents.collection_hide, Moment.ids]
  | update name id previous changes draft prepared =>
    obtain ⟨current, stored, hf, -, he, -⟩ := h.update
    rw [Moment.ids, he, Contents.ids_insert, Contents.collection_hide, Contents.collection_hide]
    split
    · rename_i hname
      subst hname
      exact Collection.ids_insert_of_mem stored (mem_ids_iff_fetch.mpr ⟨current, hf⟩)
    · rfl
  | delete name id previous =>
    obtain ⟨current, -, he, -⟩ := h.delete
    have hname : className ≠ name := by
      rintro rfl
      cases hd.symm.trans (deleted?_of_commits h)
    rw [Moment.ids, he, Contents.ids_erase, if_neg hname, Moment.ids]

theorem turn (m : Moment) (className : String) : m.Turn className := by
  by_cases hclear : m.Clears
  · have hr := reply?_of_clears hclear
    refine .cleared hclear (by rw [creates, hr]) (by rw [deleted?, hr]) ?_
    rw [Moment.ids, hclear.step_engine]
    rfl
  · cases hc : m.creates className with
    | true =>
      obtain ⟨id, hfresh, hids⟩ := born_of_creates hc
      exact .born id hclear hc (deleted?_of_creates hc) hfresh hids
    | false =>
      cases hd : m.deleted? className with
      | some id =>
        obtain ⟨hmem, hids⟩ := died_of_deleted? hd
        exact .died id hclear hc hd hmem hids
      | none =>
        refine .kept hclear hc hd ?_
        rcases m.step_effect with hq | ⟨hcl, -⟩ | ⟨write, record, response, hw⟩
        · rw [Moment.ids, hq.contents, Moment.ids]
        · exact absurd hcl hclear
        · exact kept_of_commits hw hc hd

end Moment

namespace Run

variable {r : Run} {className : String}

theorem moment_succ (r : Run) (n : Nat) : r.moment (n + 1) = (r.moment n).step := rfl

/-- The steps before a moment that no clear has undone, oldest first. -/
def since (r : Run) : Nat → List Nat
  | 0 => []
  | n + 1 => if (r.moment n).Clears then [] else r.since n ++ [n]

/-- The step answers a create of the class, and the class lists the id after it and not before. -/
def Born (r : Run) (className objectId : String) (k : Nat) : Prop :=
  (r.moment k).creates className = true ∧ objectId ∉ (r.moment k).ids className ∧
    objectId ∈ (r.moment (k + 1)).ids className

/-- The record that a step made has not been deleted since, nor has anything been cleared. -/
def Survives (r : Run) (className objectId : String) (k n : Nat) : Prop :=
  k < n ∧ r.Born className objectId k ∧
    ∀ j, k < j → j < n → ¬ (r.moment j).Clears ∧ (r.moment j).deleted? className ≠ some objectId

theorem survives_succ {objectId : String} {k n : Nat} :
    r.Survives className objectId k (n + 1) ↔
      r.Survives className objectId k n ∧ ¬ (r.moment n).Clears ∧
      (r.moment n).deleted? className ≠ some objectId ∨
        k = n ∧ r.Born className objectId n := by
  constructor
  · rintro ⟨hk, hb, hkept⟩
    rcases Nat.lt_succ_iff_lt_or_eq.mp hk with hk | rfl
    · exact .inl ⟨⟨hk, hb, fun j hkj hj => hkept j hkj (by omega)⟩, hkept n hk (by omega)⟩
    · exact .inr ⟨rfl, hb⟩
  · rintro (⟨⟨hk, hb, hkept⟩, hn⟩ | ⟨rfl, hb⟩)
    · refine ⟨by omega, hb, fun j hkj hj => ?_⟩
      rcases Nat.lt_succ_iff_lt_or_eq.mp hj with hj | rfl
      · exact hkept j hkj hj
      · exact hn
    · exact ⟨by omega, hb, fun j hkj hj => by omega⟩

theorem not_born {objectId : String} {k : Nat} (h : (r.moment k).creates className = false) :
    ¬ r.Born className objectId k :=
  fun hb => by cases h.symm.trans hb.1

structure Births (r : Run) (n : Nat) (className : String) (births : List (Nat × String)) :
    Prop where
  ordered : births.Pairwise (·.1 < ·.1)
  mem_iff : ∀ k objectId, (k, objectId) ∈ births ↔ r.Survives className objectId k n
  ids : births.map (·.2) = (r.moment n).ids className

theorem exists_births (r : Run) (n : Nat) (className : String) :
    ∃ births, r.Births n className births := by
  induction n with
  | zero =>
    refine ⟨[], .nil, fun k objectId => ?_, rfl⟩
    exact ⟨nofun, fun h => absurd h.1 (Nat.not_lt_zero k)⟩
  | succ n ih =>
    obtain ⟨births, hordered, hmem, hids⟩ := ih
    cases (r.moment n).turn className with
    | cleared clears creates deleted ids =>
      refine ⟨[], .nil, fun k objectId => ?_, ids.symm⟩
      rw [survives_succ]
      constructor
      · exact nofun
      · rintro (⟨-, h, -⟩ | ⟨-, hb⟩)
        · exact absurd clears h
        · exact absurd hb (not_born creates)
    | born id clears creates deleted fresh ids =>
      have hborn (objectId : String) : r.Born className objectId n ↔ objectId = id := by
        rw [Born, moment_succ, ids, List.mem_append, List.mem_singleton]
        constructor
        · rintro ⟨-, hn, h | h⟩
          · exact absurd h hn
          · exact h
        · rintro rfl
          exact ⟨creates, fresh, .inr rfl⟩
      refine ⟨births ++ [(n, id)], ?_, fun k objectId => ?_, ?_⟩
      · refine List.pairwise_append.mpr ⟨hordered, List.pairwise_singleton _ _, fun a ha b hb => ?_⟩
        rw [List.mem_singleton.mp hb]
        exact ((hmem a.1 a.2).mp ha).1
      · rw [List.mem_append, List.mem_singleton, hmem, survives_succ, deleted, hborn, Prod.mk.injEq]
        simp only [clears, not_false_eq_true, ne_eq, reduceCtorEq, and_true]
      · rw [List.map_append, hids]
        exact ids.symm
    | died id clears creates deleted stored ids =>
      refine ⟨births.filter (·.2 ≠ id), hordered.filter _, fun k objectId => ?_, ?_⟩
      · rw [List.mem_filter, hmem, survives_succ, deleted]
        simp only [clears, not_born creates, not_false_eq_true, decide_eq_true_eq, ne_eq,
          Option.some.injEq, true_and, and_false, or_false, @eq_comm _ id]
      · rw [moment_succ, ids, ← hids, List.filter_map]
        rfl
    | kept clears creates deleted ids =>
      refine ⟨births, hordered, fun k objectId => ?_, hids.trans ids.symm⟩
      rw [hmem, survives_succ, deleted]
      simp only [clears, not_born creates, not_false_eq_true, ne_eq, reduceCtorEq, and_self,
        and_true, and_false, or_false]

theorem length_ids_add_deletes (r : Run) (n : Nat) (className : String) :
    ((r.moment n).ids className).length +
      (r.since n).countP (fun k => ((r.moment k).deleted? className).isSome) =
      (r.since n).countP fun k => (r.moment k).creates className := by
  induction n with
  | zero => rfl
  | succ n ih =>
    cases (r.moment n).turn className with
    | cleared clears creates deleted ids =>
      rw [moment_succ, ids, since, if_pos clears]
      rfl
    | born id clears creates deleted fresh ids =>
      rw [moment_succ, ids, since, if_neg clears, List.countP_append, List.countP_append, ← ih]
      simp only [List.length_append, List.countP_cons, List.countP_nil, List.length_cons,
        List.length_nil, creates, deleted, Option.isSome_none, if_true,
        Bool.false_eq_true, if_false]
      omega
    | died id clears creates deleted stored ids =>
      have hlength : (((r.moment n).ids className).filter (· ≠ id)).length + 1 =
          ((r.moment n).ids className).length :=
        Collection.length_ids_erase stored
      rw [moment_succ, ids, since, if_neg clears, List.countP_append, List.countP_append, ← ih,
        ← hlength]
      simp only [List.countP_cons, List.countP_nil, creates, deleted, Option.isSome_some, if_true,
        Bool.false_eq_true, if_false]
      omega
    | kept clears creates deleted ids =>
      rw [moment_succ, ids, since, if_neg clears, List.countP_append, List.countP_append, ← ih]
      simp only [List.countP_cons, List.countP_nil, creates, deleted, Option.isSome_none,
        Bool.false_eq_true, if_false]
      omega

theorem exists_born_between {objectId : String} {i d : Nat}
    (hi : objectId ∉ (r.moment i).ids className)
    (hd : objectId ∈ (r.moment (i + d)).ids className) :
    ∃ k, i ≤ k ∧ k < i + d ∧ r.Born className objectId k := by
  induction d with
  | zero => exact absurd hd hi
  | succ d ih =>
    by_cases hmem : objectId ∈ (r.moment (i + d)).ids className
    · obtain ⟨k, hk, hkd, hb⟩ := ih hmem
      exact ⟨k, hk, by omega, hb⟩
    · refine ⟨i + d, by omega, by omega, ?_, hmem, hd⟩
      have hstep : objectId ∈ (r.moment (i + d)).step.ids className := hd
      cases (r.moment (i + d)).turn className with
      | cleared clears creates deleted ids =>
        rw [ids] at hstep
        cases hstep
      | born id clears creates deleted fresh ids => exact creates
      | died id clears creates deleted stored ids =>
        rw [ids, List.mem_filter] at hstep
        exact absurd hstep.1 hmem
      | kept clears creates deleted ids =>
        rw [ids] at hstep
        exact absurd hstep hmem

theorem born_between_deletes {objectId : String} {i j : Nat} (hij : i < j)
    (hi : (r.moment i).deleted? className = some objectId)
    (hj : (r.moment j).deleted? className = some objectId) :
    ∃ k, i < k ∧ k < j ∧ r.Born className objectId k := by
  have habsent : objectId ∉ (r.moment (i + 1)).ids className := by
    rw [moment_succ, (Moment.died_of_deleted? hi).2]
    simp
  obtain ⟨d, rfl⟩ : ∃ d, j = i + 1 + d := ⟨j - (i + 1), by omega⟩
  obtain ⟨k, hk, hkd, hb⟩ := exists_born_between habsent (Moment.died_of_deleted? hj).1
  exact ⟨k, by omega, hkd, hb⟩

theorem ids_of_update {name objectId : String} {stored changes : Record} {draft : Draft}
    {prepared : Draft.ofChanges stored changes = .ok draft} {outcome : Outcome} {n : Nat}
    (h : (r.moment n).reply? = some (.update name objectId stored changes draft prepared, outcome))
    (className : String) :
    (r.moment (n + 1)).ids className = (r.moment n).ids className := by
  cases (r.moment n).turn className with
  | cleared clears creates deleted ids => exact absurd clears (Moment.not_clears_of_reply? h)
  | born id clears creates deleted fresh ids =>
    obtain ⟨fields, response, hr, -⟩ := Moment.creates_iff.mp creates
    cases h.symm.trans hr
  | died id clears creates deleted stored ids =>
    obtain ⟨_, response, hr, -⟩ := Moment.deleted?_eq_some_iff.mp deleted
    cases h.symm.trans hr
  | kept clears creates deleted ids => exact ids

/--
A class holds as many records as creates of it have been answered since the last clear, less the
answered deletes. It lists each record that survives of them once, in the order of the steps that
made them, and an update leaves that list alone. A record is deleted at most once: between two
answered deletes under one id lies the create of another record.
-/
theorem records_counted (r : Run) (n : Nat) (className : String) :
    ((r.moment n).engine.contents.records className).length +
        (r.since n).countP (fun k => ((r.moment k).deleted? className).isSome) =
      (r.since n).countP (fun k => (r.moment k).creates className) ∧
    (∃ births, r.Births n className births ∧
      ((r.moment n).engine.contents.records className).map some =
        births.map fun birth => r.fetch n className birth.2) ∧
    (∀ name objectId stored changes draft prepared outcome,
      (r.moment n).reply? = some (.update name objectId stored changes draft prepared, outcome) →
        (r.moment (n + 1)).ids className = (r.moment n).ids className) ∧
    ∀ objectId i j, i < j → (r.moment i).deleted? className = some objectId →
      (r.moment j).deleted? className = some objectId →
      ∃ k, i < k ∧ k < j ∧ r.Born className objectId k := by
  refine ⟨?_, ?_,
    fun name objectId stored changes draft prepared outcome h => ids_of_update h className,
    fun objectId i j hij hi hj => born_between_deletes hij hi hj⟩
  · rw [← r.length_ids_add_deletes n className]
    simp only [Contents.records, Collection.records, Moment.ids, Collection.ids, List.length_map]
  · obtain ⟨births, h⟩ := r.exists_births n className
    refine ⟨births, h, ?_⟩
    calc
      ((r.moment n).engine.contents.records className).map some
          = ((r.moment n).ids className).map (r.fetch n className) := Collection.map_some_records _
      _ = births.map fun birth => r.fetch n className birth.2 := by rw [← h.ids, List.map_map]; rfl

def deletedTwice : Run where
  settings := { objectIdLength := 1 }
  usable := Settings.valid_shortest
  clock := {}
  ids := {}
  client := .register "Item" .beforeDelete
    (fun _ =>
      .unregister "Item" .beforeDelete (.send (.delete "Item" "1") fun _ => .answer .nothing))
    (.send (.create "Item" .null) fun _ => .send (.delete "Item" "1") fun _ => .answer .nothing)

example :
    ((List.range 8).filterMap fun k => (deletedTwice.moment k).deleted? "Item") = ["1"] := by
  decide +kernel

end Run

end DocumentStore
