import DocumentStore.Proofs.Identity
import DocumentStore.Proofs.Stamp

/-!
The stamps of a record over its life: whatever the clock does, the time of the last change never
goes back, and it is never before the time of creation.
-/

namespace DocumentStore

def stampOf (millis : Int) : String := (Instant.ofMillis millis).format

def InRange (millis : Int) : Prop := (Instant.ofMillis millis).InFourDigits

instance (millis : Int) : Decidable (InRange millis) :=
  inferInstanceAs (Decidable (Instant.InFourDigits _))

/-- The first text denotes no later instant than the second, and its bytes come no later. -/
structure NoLater (earlier later : String) : Prop where
  instants :
    ∃ t u, Instant.parse? earlier = some t ∧ Instant.parse? later = some u ∧ t.compare u ≠ .gt
  bytes : Instant.bytes earlier ≤ Instant.bytes later

theorem noLater_stampOf {t u : Int} (ht : InRange t) (hu : InRange u) (h : t ≤ u) :
    NoLater (stampOf t) (stampOf u) := by
  refine ⟨⟨_, _, Instant.parse?_format_ofMillis ht, Instant.parse?_format_ofMillis hu, ?_⟩, ?_⟩
  · intro hgt
    have := (Instant.compare_ofMillis t u).mp hgt
    omega
  · rcases Int.lt_or_eq_of_le h with hlt | rfl
    · exact List.le_of_lt (Instant.bytes_format_lt ht hu hlt)
    · exact List.le_refl _

theorem laterStamp_of_parse {text now : String} {before current : Instant}
    (hb : Instant.parse? text = some before) (hc : Instant.parse? now = some current) :
    laterStamp (some (.str text)) now = if before.compare current = .gt then text else now := by
  simp only [laterStamp, Value.asText?, Option.bind_some, hb, hc]

theorem laterStamp_stampOf {t u : Int} (ht : InRange t) (hu : InRange u) :
    laterStamp (some (.str (stampOf t))) (stampOf u) = stampOf (max t u) := by
  rw [stampOf, stampOf,
    laterStamp_of_parse (Instant.parse?_format_ofMillis ht) (Instant.parse?_format_ofMillis hu)]
  have hgt := Instant.compare_ofMillis t u
  by_cases h : u < t
  · rw [if_pos (hgt.mpr h), Int.max_eq_left (by omega), stampOf]
  · rw [if_neg (mt hgt.mp h), Int.max_eq_right (by omega), stampOf]

structure Stamped (created updated : Int) (record : Record) : Prop where
  createdAt : KeyMap.get? record "createdAt" = some (.str (stampOf created))
  updatedAt : KeyMap.get? record "updatedAt" = some (.str (stampOf updated))
  createdInRange : InRange created
  updatedInRange : InRange updated
  le : created ≤ updated

namespace Clock

def readings (c : Clock) : List Int := c.standing :: c.scheduled

theorem read_mem_readings (c : Clock) : c.read.1 ∈ c.readings := by
  obtain ⟨scheduled, standing⟩ := c
  cases scheduled with
  | nil => exact List.mem_cons_self
  | cons t rest => exact List.mem_cons_of_mem _ List.mem_cons_self

theorem readings_read (c : Clock) : c.read.2.readings ⊆ c.readings := by
  obtain ⟨scheduled, standing⟩ := c
  cases scheduled with
  | nil => exact fun _ h => h
  | cons t rest =>
    intro u hu
    rcases List.mem_cons.mp hu with rfl | hu
    · exact List.mem_cons_self
    · exact List.mem_cons_of_mem _ (List.mem_cons_of_mem _ hu)

end Clock

namespace Moment

variable {className objectId : String}

theorem readings_step (m : Moment) : m.step.engine.clock.readings ⊆ m.engine.clock.readings := by
  rcases m.step_effect with hq | ⟨-, hc⟩ | ⟨write, record, response, hw⟩
  · rw [hq.clock]
    exact fun _ h => h
  · rw [hc]
    exact fun _ h => h
  · cases write with
    | create className fields =>
      obtain ⟨_, _, _, _, -, -, -, he, -⟩ := hw.create
      rw [he]
      exact m.engine.clock.readings_read
    | update className objectId previous changes draft prepared =>
      obtain ⟨_, _, -, -, he, -⟩ := hw.update
      rw [he]
      exact m.engine.clock.readings_read
    | delete className objectId previous =>
      obtain ⟨_, -, he, -⟩ := hw.delete
      rw [he]
      exact fun _ h => h

theorem stored_of_born {m : Moment} {made : Record} (hb : m.fetch className objectId = none)
    (ha : m.step.fetch className objectId = some made) :
    ∃ draft, Stored draft objectId (some (.str m.engine.stamp.1)) m.engine.stamp.1 made := by
  cases arrival ha with
  | kept same => cases hb.symm.trans same
  | created fields record response draft bits commits drafted absent drawn shape =>
    exact ⟨draft.record, shape⟩
  | changed previous changes record current draft prepared response commits before shape =>
    cases hb.symm.trans before

theorem stamped_born {m : Moment} (hnow : InRange m.engine.clock.read.1) {made : Record}
    (hb : m.fetch className objectId = none) (ha : m.step.fetch className objectId = some made) :
    ∃ created, Stamped created created made := by
  obtain ⟨draft, shape⟩ := stored_of_born hb ha
  exact ⟨m.engine.clock.read.1, shape.createdAt, shape.updatedAt, hnow, hnow, Int.le_refl _⟩

theorem stamped_step {m : Moment} (hnow : InRange m.engine.clock.read.1) {before after : Record}
    {created updated : Int} (hs : Stamped created updated before)
    (hb : m.fetch className objectId = some before)
    (ha : m.step.fetch className objectId = some after) :
    ∃ updated', updated ≤ updated' ∧ Stamped created updated' after := by
  cases m.fate className objectId with
  | kept same =>
    obtain rfl : before = after := Option.some.inj (hb.symm.trans (same.symm.trans ha))
    exact ⟨updated, Int.le_refl _, hs⟩
  | gone absent => cases absent.symm.trans ha
  | born fields given draft stored response bits commits status absent after' drawn shape =>
    cases absent.symm.trans hb
  | changed current draft stored before' after' shape =>
    obtain rfl : current = before := Option.some.inj (before'.symm.trans hb)
    obtain rfl : stored = after := Option.some.inj (after'.symm.trans ha)
    have hnow' : m.engine.stamp.1 = stampOf m.engine.clock.read.1 := rfl
    have hupdated := shape.updatedAt
    rw [hs.updatedAt, hnow', laterStamp_stampOf hs.updatedInRange hnow] at hupdated
    have hle := hs.le
    refine ⟨max updated m.engine.clock.read.1, by omega, shape.createdAt.trans hs.createdAt,
      hupdated, hs.createdInRange, ?_, by omega⟩
    rcases Int.le_total updated m.engine.clock.read.1 with h | h
    · rw [Int.max_eq_right h]
      exact hnow
    · rw [Int.max_eq_left h]
      exact hs.updatedInRange

end Moment

namespace Run

def UpdatedAt (r : Run) (n : Nat) (className objectId text : String) : Prop :=
  ∃ record, r.fetch n className objectId = some record ∧
    KeyMap.get? record "updatedAt" = some (.str text)

variable {r : Run} {className objectId : String}

theorem readings_moment (r : Run) (n : Nat) :
    (r.moment n).engine.clock.readings ⊆ r.clock.readings := by
  induction n with
  | zero => exact fun _ h => h
  | succ n ih => exact fun t ht => ih ((r.moment n).readings_step ht)

theorem read_inRange (hclock : ∀ millis ∈ r.clock.readings, InRange millis) (n : Nat) :
    InRange (r.moment n).engine.clock.read.1 :=
  hclock _ (r.readings_moment n (r.moment n).engine.clock.read_mem_readings)

/-- The induction is on the steps between two moments at which a record is stored, and at all
moments between. -/
theorem stamped_add (hclock : ∀ millis ∈ r.clock.readings, InRange millis) {i d : Nat}
    {record : Record} {created updated : Int} (hs : Stamped created updated record)
    (hf : r.fetch i className objectId = some record)
    (hstored : ∀ j, i < j → j ≤ i + d → ∃ kept, r.fetch j className objectId = some kept) :
    ∃ later updated', r.fetch (i + d) className objectId = some later ∧ updated ≤ updated' ∧
      Stamped created updated' later := by
  induction d with
  | zero => exact ⟨record, updated, hf, Int.le_refl _, hs⟩
  | succ d ih =>
    obtain ⟨before, u, hb, hu, hbs⟩ := ih fun j hij hj => hstored j hij (by omega)
    obtain ⟨after, ha⟩ := hstored (i + (d + 1)) (by omega) (by omega)
    obtain ⟨u', hu', has⟩ := Moment.stamped_step (read_inRange hclock (i + d)) hbs hb ha
    exact ⟨after, u', ha, Int.le_trans hu hu', has⟩

/--
With a clock whose readings, forwards or back, have years of four digits, a stored record has since
its creation had times of change that never went back, none before the time of its creation, and the
first of them that time itself.
-/
theorem updatedAt_never_decreases (r : Run) (hclock : ∀ millis ∈ r.clock.readings, InRange millis)
    (n : Nat) {record : Record} (h : r.fetch n className objectId = some record) :
    ∃ createdAt k, r.KeptSince className objectId createdAt k n ∧
      r.UpdatedAt (k + 1) className objectId createdAt ∧
      ∀ i j, k < i → i ≤ j → j ≤ n → ∃ before after, r.UpdatedAt i className objectId before ∧
        r.UpdatedAt j className objectId after ∧ NoLater createdAt before ∧
        NoLater before after := by
  obtain ⟨-, createdAt, k, -, hkept⟩ := r.keptSince_of_fetch n h
  obtain ⟨hkn, ⟨made, hmade, hidentified⟩, hstored⟩ := hkept
  obtain ⟨created, hs⟩ := Moment.stamped_born (read_inRange hclock k) hmade.absent hmade.stored
  obtain rfl : createdAt = stampOf created :=
    Value.str.inj (Option.some.inj (hidentified.createdAt.symm.trans hs.createdAt))
  refine ⟨stampOf created, k, ⟨hkn, ⟨made, hmade, hidentified⟩, hstored⟩,
    ⟨made, hmade.stored, hs.updatedAt⟩, ?_⟩
  intro i j hki hij hjn
  have stored (l : Nat) (hl : k < l) (hln : l ≤ n) :
      ∃ kept, r.fetch l className objectId = some kept := by
    obtain ⟨kept, hkept, -⟩ := hstored l hl hln
    exact ⟨kept, hkept⟩
  obtain ⟨d, rfl⟩ : ∃ d, i = k + 1 + d := ⟨i - (k + 1), by omega⟩
  obtain ⟨d', rfl⟩ : ∃ d', j = k + 1 + d + d' := ⟨j - (k + 1 + d), by omega⟩
  have hstored₁ (l : Nat) (hl : k + 1 < l) (hld : l ≤ k + 1 + d) := stored l (by omega) (by omega)
  have hstored₂ (l : Nat) (hl : k + 1 + d < l) (hld : l ≤ k + 1 + d + d') :=
    stored l (by omega) (by omega)
  obtain ⟨before, u, hb, -, hbs⟩ := stamped_add hclock hs hmade.stored hstored₁
  obtain ⟨after, u', ha, hu, has⟩ := stamped_add hclock hbs hb hstored₂
  exact ⟨stampOf u, stampOf u', ⟨before, hb, hbs.updatedAt⟩, ⟨after, ha, has.updatedAt⟩,
    noLater_stampOf hbs.createdInRange hbs.updatedInRange hbs.le,
    noLater_stampOf hbs.updatedInRange has.updatedInRange hu⟩

def setback : Run where
  settings := { objectIdLength := 1 }
  usable := Settings.valid_shortest
  clock := { scheduled := [1000], standing := 0 }
  ids := {}
  client := .send (.create "Item" .null) fun _ =>
    .send (.update "Item" "1" (.obj [("a", .bool true)])) fun _ => .answer .nothing

theorem updatedAt_never_decreases_setback :
    (∀ millis ∈ setback.clock.readings, InRange millis) ∧ ∃ record,
      setback.fetch 4 "Item" "1" = some record ∧
      ∃ createdAt k, setback.KeptSince "Item" "1" createdAt k 4 ∧
        setback.UpdatedAt (k + 1) "Item" "1" createdAt ∧
        ∀ i j, k < i → i ≤ j → j ≤ 4 → ∃ before after, setback.UpdatedAt i "Item" "1" before ∧
          setback.UpdatedAt j "Item" "1" after ∧ NoLater createdAt before ∧ NoLater before after :=
  ⟨by decide, _, rfl, setback.updatedAt_never_decreases (by decide) 4 rfl⟩

end Run

end DocumentStore
