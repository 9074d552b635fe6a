import DocumentStore.Proofs.Census
import DocumentStore.Proofs.Identity
import Mathlib.Algebra.BigOperators.Fin
import Mathlib.Data.Fintype.BigOperators

/-!
Ids that are left. The ids of a length are the words of their digits, of which two are marked by the
version and the variant; so they can be counted, and a class has one left as long as it has fewer
records.
-/

namespace DocumentStore

namespace Text

def hexDigit (width n place : Nat) : Nat := n / 16 ^ (width - 1 - place) % 16

theorem hexDigit_lt (width n place : Nat) : hexDigit width n place < 16 := Nat.mod_lt _ (by decide)

theorem hexDigit_succ {width place : Nat} (h : place < width) (n : Nat) :
    hexDigit (width + 1) n place = hexDigit width (n / 16) place := by
  have hplaces : width + 1 - 1 - place = (width - 1 - place) + 1 := by omega
  rw [hexDigit, hexDigit, hplaces, Nat.pow_succ', Nat.div_div_eq_div_mul]

theorem hexDigit_last (width n : Nat) : hexDigit (width + 1) n width = n % 16 := by
  rw [hexDigit, Nat.add_sub_cancel, Nat.sub_self, Nat.pow_zero, Nat.div_one]

theorem hexPadded_eq (width n : Nat) :
    hexPadded width n = (List.range width).map fun place =>
      Nat.digitChar (hexDigit width n place) := by
  induction width generalizing n with
  | zero => rfl
  | succ width ih =>
    have hfirst :
        (List.range width).map (fun place => Nat.digitChar (hexDigit (width + 1) n place)) =
        hexPadded width (n / 16) := by
      rw [ih]
      refine List.map_congr_left fun place hplace => ?_
      rw [hexDigit_succ (List.mem_range.mp hplace)]
    rw [List.range_succ, List.map_append, hfirst, List.map_singleton, hexDigit_last, hexPadded]

theorem exists_hexDigits (width : Nat) {digits : Nat → Nat} (h : ∀ place, digits place < 16) :
    ∃ n < 16 ^ width, ∀ place < width, hexDigit width n place = digits place := by
  induction width with
  | zero => exact ⟨0, Nat.one_pos, nofun⟩
  | succ width ih =>
    obtain ⟨n, hn, hdigits⟩ := ih
    have hlast := h width
    have hdiv : (16 * n + digits width) / 16 = n := by omega
    refine ⟨16 * n + digits width, ?_, fun place hplace => ?_⟩
    · rw [Nat.pow_succ]
      omega
    · by_cases hp : place = width
      · subst hp
        rw [hexDigit_last]
        omega
      · have hbefore : place < width := by omega
        rw [hexDigit_succ hbefore, hdiv]
        exact hdigits place hbefore

theorem pow_sixteen (k : Nat) : 16 ^ k = 2 ^ (4 * k) := by rw [Nat.pow_mul]

theorem hexDigit_and (width a b place : Nat) :
    hexDigit width (a &&& b) place = hexDigit width a place &&& hexDigit width b place := by
  unfold hexDigit
  rw [pow_sixteen, Nat.and_div_two_pow]
  exact Nat.and_mod_two_pow (n := 4)

theorem hexDigit_or (width a b place : Nat) :
    hexDigit width (a ||| b) place = hexDigit width a place ||| hexDigit width b place := by
  unfold hexDigit
  rw [pow_sixteen, Nat.or_div_two_pow]
  exact Nat.or_mod_two_pow (n := 4)

theorem digitChar_inj : ∀ a < 16, ∀ b < 16, Nat.digitChar a = Nat.digitChar b → a = b := by decide

end Text

namespace IdSupply

/-- The digit of an identifier that a random digit at a place becomes. -/
def marked (place digit : Nat) : Nat :=
  if place = 12 then 4 else if place = 16 then 8 + digit % 4 else digit

theorem marked_lt {place digit : Nat} (h : digit < 16) : marked place digit < 16 := by
  unfold marked
  split
  · decide
  · split <;> omega

theorem hexDigit_identifier {place : Nat} (h : place < 32) (bits : Nat) :
    Text.hexDigit 32 (identifier bits) place = marked place (Text.hexDigit 32 bits place) := by
  -- The masks act digit by digit, and leave all digits but two alone.
  have hmasks : ∀ place < 32, ∀ digit < 16,
      digit &&& Text.hexDigit 32 0xFFFFFFFFFFFF4FFFBFFFFFFFFFFFFFFF place |||
        Text.hexDigit 32 0x40008000000000000000 place = marked place digit := by decide +kernel
  rw [identifier, Text.hexDigit_or, Text.hexDigit_and]
  exact hmasks place h _ (Text.hexDigit_lt 32 bits place)

def choices (place : Nat) : Nat :=
  if place = 12 then 1 else if place = 16 then 4 else 16

def capacity (length : Nat) : Nat := ∏ place ∈ Finset.range length, choices place

theorem card_marked (place : Nat) :
    ((Finset.range 16).image (marked place)).card = choices place := by
  unfold marked choices
  split
  · decide
  · split
    · decide
    · rw [Finset.image_id', Finset.card_range]

def spell {length : Nat} (word : Fin length → Nat) : String :=
  .ofList (List.ofFn fun place => Nat.digitChar (word place))

def words (length : Nat) : Finset (Fin length → Nat) :=
  Fintype.piFinset fun place => (Finset.range 16).image (marked place)

theorem lt_of_mem_words {length : Nat} {word : Fin length → Nat} (h : word ∈ words length)
    (place : Fin length) :
    word place < 16 := by
  obtain ⟨digit, hdigit, heq⟩ := Finset.mem_image.mp (Fintype.mem_piFinset.mp h place)
  rw [← heq]
  exact marked_lt (Finset.mem_range.mp hdigit)

theorem spell_injOn (length : Nat) : Set.InjOn spell (words length : Set (Fin length → Nat)) := by
  intro word hword word' hword' heq
  have hletters := List.ofFn_injective (String.ofList_injective heq)
  funext place
  exact Text.digitChar_inj _ (lt_of_mem_words hword place) _ (lt_of_mem_words hword' place)
    (congrFun hletters place)

def drawable (length : Nat) : Finset String := (words length).image spell

theorem card_drawable (length : Nat) : (drawable length).card = capacity length := by
  rw [drawable, Finset.card_image_of_injOn (spell_injOn length), words, Fintype.card_piFinset,
    capacity, Finset.prod_range]
  exact Finset.prod_congr rfl fun place _ => card_marked place

example : capacity 32 = 2 ^ 122 := by decide +kernel

section Draws

variable {length : Nat}

theorem idOf_eq_spell (h : length ≤ 32) (bits : Nat) :
    idOf length bits = spell fun place : Fin length =>
      marked place (Text.hexDigit 32 bits place) := by
  unfold idOf spell
  congr 1
  rw [Text.hexPadded_eq, ← List.map_take, List.take_range, Nat.min_eq_left h]
  refine List.ext_getElem (by simp) fun place hplace _ => ?_
  have hlt : place < 32 := by
    simp only [List.length_map, List.length_range] at hplace
    omega
  simp only [List.getElem_map, List.getElem_range, List.getElem_ofFn, hexDigit_identifier hlt]

theorem mem_drawable_idOf (h : length ≤ 32) (bits : Nat) : idOf length bits ∈ drawable length := by
  rw [idOf_eq_spell h]
  refine Finset.mem_image_of_mem spell (Fintype.mem_piFinset.mpr fun place => ?_)
  exact Finset.mem_image_of_mem _ (Finset.mem_range.mpr (Text.hexDigit_lt 32 bits place))

theorem exists_bits_of_mem_drawable (h : length ≤ 32) {id : String} (hid : id ∈ drawable length) :
    ∃ bits < 2 ^ 128, idOf length bits = id := by
  obtain ⟨word, hword, rfl⟩ := Finset.mem_image.mp hid
  have hdigits (place : Fin length) : ∃ digit < 16, marked place digit = word place := by
    obtain ⟨digit, hdigit, heq⟩ := Finset.mem_image.mp (Fintype.mem_piFinset.mp hword place)
    exact ⟨digit, Finset.mem_range.mp hdigit, heq⟩
  choose digits hlt hmarked using hdigits
  -- Nothing is asked of the digits after the length.
  have hall (place : Nat) : (if hp : place < length then digits ⟨place, hp⟩ else 0) < 16 := by
    split
    · exact hlt _
    · decide
  obtain ⟨bits, hbits, heq⟩ := Text.exists_hexDigits 32 hall
  refine ⟨bits, hbits, ?_⟩
  rw [idOf_eq_spell h]
  congr 1
  funext place
  rw [heq place (by omega), dif_pos place.isLt]
  exact hmarked place

theorem exists_free_iff (h : length ≤ 32) {ids : List String} (hids : ids.Nodup)
    (hdrawn : ∀ id ∈ ids, ∃ bits, id = idOf length bits) :
    (∃ bits < 2 ^ 128, idOf length bits ∉ ids) ↔ ids.length < capacity length := by
  have hsubset : ids.toFinset ⊆ drawable length := by
    intro id hid
    obtain ⟨bits, rfl⟩ := hdrawn id (List.mem_toFinset.mp hid)
    exact mem_drawable_idOf h bits
  rw [← card_drawable, ← List.toFinset_card_of_nodup hids]
  constructor
  · intro ⟨bits, _, hfree⟩
    have hnot : idOf length bits ∉ ids.toFinset := fun hm => hfree (List.mem_toFinset.mp hm)
    exact Finset.card_lt_card
      ((Finset.ssubset_iff_of_subset hsubset).mpr ⟨_, mem_drawable_idOf h bits, hnot⟩)
  · intro hlt
    obtain ⟨id, hid, hnot⟩ := Finset.exists_mem_notMem_of_card_lt_card hlt
    obtain ⟨bits, hbits, rfl⟩ := exists_bits_of_mem_drawable h hid
    exact ⟨bits, hbits, fun hm => hnot (List.mem_toFinset.mpr hm)⟩

theorem next?_of_free {bits : Nat} {ids : List String} (h : idOf length bits ∉ ids) :
    next? length ids { scheduled := [bits] } = some (idOf length bits, { drawn := 1 }) := by
  have htaken : ids.contains (idOf length bits) = false := by
    rw [List.contains_eq_mem]
    exact decide_eq_false h
  simp only [next?, fresh?, draw, htaken, Bool.false_eq_true, if_false]

end Draws

end IdSupply

theorem Engine.exists_commitNew_iff {e : Engine} (h : e.settings.objectIdLength ≤ 32)
    (className : String) (draft : Draft) :
    (∃ ids, ({ e with ids := ids }.commitNew className draft).isSome = true) ↔
      ∃ bits < 2 ^ 128,
        IdSupply.idOf e.settings.objectIdLength bits ∉ (e.contents.collection className).ids := by
  constructor
  · intro ⟨ids, hsome⟩
    obtain ⟨⟨response, e'⟩, hc⟩ := Option.isSome_iff_exists.mp hsome
    obtain ⟨id, _, _, hid, -⟩ := commitNew_eq_some hc
    obtain ⟨hfree, bits, rfl⟩ := IdSupply.next?_eq_some hid
    obtain ⟨bits', hbits', heq⟩ :=
      IdSupply.exists_bits_of_mem_drawable h (IdSupply.mem_drawable_idOf h bits)
    refine ⟨bits', hbits', ?_⟩
    rw [heq]
    exact hfree
  · intro ⟨bits, _, hfree⟩
    refine ⟨{ scheduled := [bits] }, ?_⟩
    simp only [commitNew, IdSupply.next?_of_free hfree, Option.isSome_some]

namespace Run

theorem drawn (r : Run) (n : Nat) (className : String) :
    ∀ id ∈ (r.moment n).ids className, ∃ bits,
      id = IdSupply.idOf r.settings.objectIdLength bits := by
  intro id hid
  obtain ⟨record, hf⟩ := Moment.mem_ids_iff_fetch.mp hid
  exact (r.keptSince_of_fetch n hf).1

theorem exists_free_iff (r : Run) (n : Nat) (className : String) :
    (∃ bits < 2 ^ 128, IdSupply.idOf r.settings.objectIdLength bits ∉ (r.moment n).ids className) ↔
      ((r.moment n).ids className).length < IdSupply.capacity r.settings.objectIdLength :=
  IdSupply.exists_free_iff r.usable.objectIdLength_le
    ((r.moment n).engine.contents.collection className).distinct (r.drawn n className)

/--
At every moment of a run some draw makes an id that is free in a class just where the class has
fewer records than there are ids of the length that the settings ask for. Just there the commit of a
new record can end.
-/
theorem create_can_end_iff (r : Run) (n : Nat) (className : String) :
    ((∃ bits < 2 ^ 128, IdSupply.idOf r.settings.objectIdLength bits ∉ (r.moment n).ids className) ↔
      ((r.moment n).ids className).length < IdSupply.capacity r.settings.objectIdLength) ∧
    ∀ draft,
      (∃ ids, ({ (r.moment n).engine with ids := ids }.commitNew className draft).isSome = true) ↔
      ((r.moment n).ids className).length < IdSupply.capacity r.settings.objectIdLength := by
  have hfree := r.exists_free_iff n className
  have hlength := r.usable.objectIdLength_le
  refine ⟨hfree, fun draft => ?_⟩
  rw [← r.settings_moment n] at hlength hfree
  rw [Engine.exists_commitNew_iff hlength, ← r.settings_moment n]
  exact hfree

def creating : Nat → Script
  | 0 => .answer .nothing
  | k + 1 => .send (.create "Item" .null) fun _ => creating k

def crowded : Run where
  settings := { objectIdLength := 1 }
  usable := Settings.valid_shortest
  clock := {}
  ids := {}
  client := creating 17

set_option maxRecDepth 2000 in
theorem crowded_has_no_next :
    (crowded.moment 33).script = .answer .nothing ∧
      (∃ sender, (crowded.moment 33).waiting = [(.create "Item" [], sender)]) ∧
      (∀ bits < 2 ^ 128,
        IdSupply.idOf crowded.settings.objectIdLength bits ∈ (crowded.moment 33).ids "Item") ∧
      (crowded.moment 33).next? = none := by
  have hfull : ((crowded.moment 33).ids "Item").length = IdSupply.capacity 1 := by decide +kernel
  have hnext : (crowded.moment 33).next?.isNone = true := by decide +kernel
  refine ⟨rfl, ⟨_, rfl⟩, fun bits hbits => ?_, Option.isNone_iff_eq_none.mp hnext⟩
  by_contra hfree
  have hlt := (crowded.exists_free_iff 33 "Item").mp ⟨bits, hbits, hfree⟩
  exact absurd hfull (Nat.ne_of_lt hlt)

end Run

end DocumentStore
