import DocumentStore.Proofs.Run

/-!
Ids and times of creation. A record keeps both from the create that made it until it is removed,
whatever payloads, operators, replacements of hooks and nested writes come in between.
-/

namespace DocumentStore

def IsLowerHex (c : Char) : Prop := '0' ≤ c ∧ c ≤ '9' ∨ 'a' ≤ c ∧ c ≤ 'f'

instance (c : Char) : Decidable (IsLowerHex c) := inferInstanceAs (Decidable (_ ∨ _))

def IsObjectId (length : Nat) (objectId : String) : Prop :=
  objectId.length = length ∧ ∀ c ∈ objectId.toList, IsLowerHex c

namespace Text

theorem length_hexPadded (width n : Nat) : (hexPadded width n).length = width := by
  induction width generalizing n with
  | zero => rfl
  | succ width ih => rw [hexPadded, List.length_append, ih, List.length_singleton]

theorem isLowerHex_digitChar : ∀ n < 16, IsLowerHex (Nat.digitChar n) := by decide

theorem isLowerHex_of_mem_hexPadded {width n : Nat} {c : Char} (h : c ∈ hexPadded width n) :
    IsLowerHex c := by
  induction width generalizing n with
  | zero => cases h
  | succ width ih =>
    rcases List.mem_append.mp h with h | h
    · exact ih h
    · rw [List.mem_singleton.mp h]
      exact isLowerHex_digitChar _ (Nat.mod_lt n (by decide))

end Text

theorem Settings.Valid.objectIdLength_le {s : Settings} (h : s.Valid) :
    s.objectIdLength ≤ longestId := by
  simp only [Valid, fault?] at h
  split at h
  · cases h
  · split at h
    · cases h
    · split at h
      · cases h
      · omega

theorem isObjectId_idOf {length : Nat} (h : length ≤ 32) (bits : Nat) :
    IsObjectId length (IdSupply.idOf length bits) := by
  constructor
  · rw [IdSupply.idOf, String.length_ofList, List.length_take, Text.length_hexPadded]
    omega
  · intro c hc
    rw [IdSupply.idOf, String.toList_ofList] at hc
    exact Text.isLowerHex_of_mem_hexPadded (List.mem_of_mem_take hc)

structure Identified (objectId createdAt : String) (record : Record) : Prop where
  objectId : KeyMap.get? record "objectId" = some (.str objectId)
  createdAt : KeyMap.get? record "createdAt" = some (.str createdAt)
  updatedAt : ∃ text, KeyMap.get? record "updatedAt" = some (.str text)

theorem Stored.identified {draft record : Record} {objectId createdAt updatedAt : String}
    (h : Stored draft objectId (some (.str createdAt)) updatedAt record) :
    Identified objectId createdAt record :=
  ⟨h.objectId, h.createdAt, updatedAt, h.updatedAt⟩

namespace Run

/-- Between this moment and the next, a create makes a record of a class under an id that was
free. -/
structure Creates (r : Run) (n : Nat) (className objectId : String) (made : Record) : Prop where
  commits : ∃ fields record response,
    (r.moment n).Commits (.create className fields) record response ∧ response.status = 201
  absent : r.fetch n className objectId = none
  stored : r.fetch (n + 1) className objectId = some made

/-- Since a create at moment `k` the record under an id has been there, with the id and the time
written then. -/
def KeptSince (r : Run) (className objectId createdAt : String) (k n : Nat) : Prop :=
  k < n ∧ (∃ made, r.Creates k className objectId made ∧ Identified objectId createdAt made) ∧
    ∀ j, k < j → j ≤ n →
      ∃ kept, r.fetch j className objectId = some kept ∧ Identified objectId createdAt kept

variable {r : Run} {className objectId createdAt : String}

theorem KeptSince.succ {k n : Nat} (h : r.KeptSince className objectId createdAt k n)
    {record : Record} (hf : r.fetch (n + 1) className objectId = some record)
    (hi : Identified objectId createdAt record) :
    r.KeptSince className objectId createdAt k (n + 1) := by
  obtain ⟨hk, hmade, hkept⟩ := h
  refine ⟨by omega, hmade, fun j hkj hjn => ?_⟩
  rcases Nat.lt_or_eq_of_le hjn with hj | rfl
  · exact hkept j hkj (by omega)
  · exact ⟨record, hf, hi⟩

theorem keptSince_of_fetch (r : Run) (n : Nat) {record : Record}
    (h : r.fetch n className objectId = some record) :
    (∃ bits, objectId = IdSupply.idOf r.settings.objectIdLength bits) ∧
      ∃ createdAt k, Identified objectId createdAt record ∧
        r.KeptSince className objectId createdAt k n := by
  induction n generalizing record with
  | zero => cases h
  | succ n ih =>
    cases (r.moment n).fate className objectId with
    | kept same =>
      obtain ⟨hid, createdAt, k, hi, hk⟩ := ih (same.symm.trans h)
      exact ⟨hid, createdAt, k, hi, hk.succ h hi⟩
    | gone absent => cases absent.symm.trans h
    | born fields given draft stored response bits commits status absent after drawn shape =>
      obtain rfl : stored = record := Option.some.inj (after.symm.trans h)
      refine ⟨⟨bits, by rw [drawn, settings_moment]⟩, _, n, shape.identified, Nat.lt_succ_self n,
        ?_, fun j hnj hjn => ?_⟩
      · exact ⟨stored, ⟨⟨fields, given, response, commits, status⟩, absent, h⟩, shape.identified⟩
      · obtain rfl : j = n + 1 := by omega
        exact ⟨stored, h, shape.identified⟩
    | changed current draft stored before after shape =>
      obtain rfl : stored = record := Option.some.inj (after.symm.trans h)
      obtain ⟨hid, createdAt, k, hi, hk⟩ := ih before
      rw [hi.createdAt] at shape
      exact ⟨hid, createdAt, k, shape.identified, hk.succ h shape.identified⟩

/--
At every moment of a run a stored record carries its id, of the length the settings ask for, and the
text of the time at which a create made it; it has had both at every moment since, whatever
payloads, operators and hooks said of them.
-/
theorem identity_kept (r : Run) (n : Nat) {record : Record}
    (h : r.fetch n className objectId = some record) :
    IsObjectId r.settings.objectIdLength objectId ∧
      ∃ createdAt k, Identified objectId createdAt record ∧
        r.KeptSince className objectId createdAt k n := by
  obtain ⟨⟨bits, rfl⟩, hkept⟩ := r.keptSince_of_fetch n h
  exact ⟨isObjectId_idOf r.usable.objectIdLength_le bits, hkept⟩

def forgery : Run where
  settings := { objectIdLength := 1 }
  usable := Settings.valid_shortest
  clock := {}
  ids := {}
  client :=
    .register "Item" .beforeSave (fun _ =>
      .answer (.replacement [("createdAt", .null), ("objectId", .str "x")]))
    (.send (.create "Item" (.obj [("objectId", .str "y")])) fun _ => .answer .nothing)

theorem identity_kept_forgery :
    ∃ record, forgery.fetch 3 "Item" "1" = some record ∧ IsObjectId 1 "1" ∧
      ∃ createdAt k, Identified "1" createdAt record ∧ forgery.KeptSince "Item" "1" createdAt k 3 :=
  ⟨_, rfl, forgery.identity_kept 3 rfl⟩

end Run

end DocumentStore
