/-!
Sets of characters as lists of ranges of code points. Main statements: neither the order of the
ranges nor their overlaps count (`contains_canonical`), and a complement holds what the set does not
(`contains_complement`).
-/

namespace DocumentStore

/-- A set of characters, as ranges with both ends. -/
abbrev CharSet := List (Nat × Nat)

namespace CharSet

def covers (set : CharSet) (n : Nat) : Bool := set.any fun r => r.1 ≤ n && n ≤ r.2

def contains (set : CharSet) (c : Char) : Bool := set.covers c.toNat

def single (c : Char) : CharSet := [(c.toNat, c.toNat)]

def last : Nat := 0x10FFFF

def full : CharSet := [(0, last)]

def joinOnto (r : Nat × Nat) : CharSet → CharSet
  | [] => [r]
  | s :: ss => if s.1 ≤ r.2 + 1 then joinOnto (r.1, max r.2 s.2) ss else r :: joinOnto s ss

def join : CharSet → CharSet
  | [] => []
  | r :: rs => joinOnto r rs

def startsBefore (r s : Nat × Nat) : Bool := r.1 ≤ s.1

def canonical (set : CharSet) : CharSet := join (set.mergeSort startsBefore)

def cut (r s : Nat × Nat) : CharSet :=
  if s.2 < r.1 ∨ r.2 < s.1 then [s]
  else (if s.1 < r.1 then [(s.1, r.1 - 1)] else []) ++ (if r.2 < s.2 then [(r.2 + 1, s.2)] else [])

def complement (set : CharSet) : CharSet := set.foldr (fun r rest => rest.flatMap (cut r)) full

def foldRange (r : Nat × Nat) : Option (Nat × Nat) :=
  if r.1 ≤ 122 ∧ 97 ≤ r.2 then some (max r.1 97 - 32, min r.2 122 - 32)
  else if r.1 ≤ 90 ∧ 65 ≤ r.2 then some (max r.1 65 + 32, min r.2 90 + 32)
  else none

def foldCase (set : CharSet) : CharSet := canonical (set ++ set.filterMap foldRange)

theorem covers_nil (n : Nat) : covers [] n = false := rfl

theorem covers_cons (r : Nat × Nat) (set : CharSet) (n : Nat) :
    covers (r :: set) n = (decide (r.1 ≤ n ∧ n ≤ r.2) || covers set n) := by
  simp [covers]

theorem covers_append (set other : CharSet) (n : Nat) :
    covers (set ++ other) n = (covers set n || covers other n) := by
  simp [covers]

theorem contains_single (c d : Char) : (single c).contains d = (c == d) := by
  rw [Bool.eq_iff_iff, beq_iff_eq, single, contains, covers_cons, covers_nil, Bool.or_false,
    decide_eq_true_eq, ← Char.toNat_inj]
  omega

theorem covers_joinOnto (r : Nat × Nat) (set : CharSet) (n : Nat)
    (h : (r :: set).Pairwise (·.1 ≤ ·.1)) :
    covers (joinOnto r set) n = covers (r :: set) n := by
  induction set generalizing r with
  | nil => rfl
  | cons s ss ih =>
    obtain ⟨hr, hs⟩ := List.pairwise_cons.1 h
    have hrs : r.1 ≤ s.1 := hr s List.mem_cons_self
    simp only [joinOnto]
    split
    · rename_i hle
      have hjoined : ((r.1, max r.2 s.2) :: ss).Pairwise (·.1 ≤ ·.1) :=
        List.pairwise_cons.2 ⟨fun t ht => hr t (List.mem_cons_of_mem s ht),
          (List.pairwise_cons.1 hs).2⟩
      rw [ih _ hjoined, covers_cons, covers_cons, covers_cons, ← Bool.or_assoc, ← Bool.decide_or]
      congr 1
      exact decide_eq_decide.2 (by omega)
    · rw [covers_cons, ih s hs, ← covers_cons]

theorem pairwise_mergeSort_startsBefore (set : CharSet) :
    (set.mergeSort startsBefore).Pairwise (·.1 ≤ ·.1) := by
  have h : (set.mergeSort startsBefore).Pairwise fun r s => startsBefore r s = true :=
    List.pairwise_mergeSort
      (fun r s t hrs hst => by simp only [startsBefore, decide_eq_true_eq] at *; omega)
      (fun r s => by simp only [startsBefore, Bool.or_eq_true, decide_eq_true_eq]; omega) set
  exact h.imp fun hrs => of_decide_eq_true hrs

theorem covers_canonical (set : CharSet) (n : Nat) : covers (canonical set) n = covers set n := by
  have hsorted := pairwise_mergeSort_startsBefore set
  have hmem : covers (set.mergeSort startsBefore) n = covers set n := by
    rw [Bool.eq_iff_iff]
    simp only [covers, List.any_eq_true, List.mem_mergeSort]
  rw [canonical, ← hmem]
  cases hs : set.mergeSort startsBefore with
  | nil => rfl
  | cons r rs => exact covers_joinOnto r rs n (hs ▸ hsorted)

theorem contains_canonical (set : CharSet) (c : Char) :
    (canonical set).contains c = set.contains c :=
  covers_canonical set c.toNat

theorem covers_cut (r s : Nat × Nat) (n : Nat) :
    covers (cut r s) n = (decide (s.1 ≤ n ∧ n ≤ s.2) && !decide (r.1 ≤ n ∧ n ≤ r.2)) := by
  rw [Bool.eq_iff_iff]
  unfold cut
  split
  · simp [covers]
    omega
  · split <;> split <;> simp [covers] <;> omega

theorem covers_flatMap_cut (r : Nat × Nat) (set : CharSet) (n : Nat) :
    covers (set.flatMap (cut r)) n = (covers set n && !decide (r.1 ≤ n ∧ n ≤ r.2)) := by
  induction set with
  | nil => rfl
  | cons s ss ih =>
    rw [List.flatMap_cons, covers_append, ih, covers_cut, covers_cons, Bool.and_or_distrib_right]

theorem covers_complement (set : CharSet) (n : Nat) (h : n ≤ last) :
    covers (complement set) n = !covers set n := by
  induction set with
  | nil => simp [complement, full, covers, h]
  | cons r rs ih =>
    simp only [complement, List.foldr_cons] at ih ⊢
    rw [covers_flatMap_cut, ih, covers_cons, Bool.not_or, Bool.and_comm]

theorem contains_complement (set : CharSet) (c : Char) :
    (complement set).contains c = !set.contains c := by
  apply covers_complement
  have h := c.valid
  simp only [UInt32.isValidChar, Nat.isValidChar] at h
  have hn : c.toNat = c.val.toNat := rfl
  simp only [last]
  omega

end CharSet

end DocumentStore
