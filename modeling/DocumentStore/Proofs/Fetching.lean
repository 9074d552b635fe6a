import DocumentStore.Proofs.Composing
import DocumentStore.Proofs.Lookup
import DocumentStore.Proofs.Masking
import DocumentStore.Proofs.Membership

/-!
What an include puts in the place of a pointer: the record that the pointer names. A field of the
record wins over a tag of the same name, so the tags are to be relied on just where the record has
no other value under their names.
-/

namespace DocumentStore

structure Value.PointsTo (v : Value) (p : Pointer) : Prop where
  tagged : v.isPointer = true
  named : Pointer.ofValue? v = some p

theorem Pointer.pointsTo_toValue (p : Pointer) : p.toValue.PointsTo p := ⟨rfl, ofValue?_toValue p⟩

theorem Value.PointsTo.exists_fields {v : Value} {p : Pointer} (h : v.PointsTo p) :
    ∃ fields, v = .obj fields :=
  TaggedPointer.isObject ⟨h.tagged, by rw [h.named]; rfl⟩

def referenceFields : List String := ["__type", "className", "objectId"]

theorem get?_expansionTags_of_notMem {field : String} (h : field ∉ referenceFields)
    (className : String) :
    KeyMap.get? (expansionTags className) field = none := by
  rw [KeyMap.get?_eq_none_iff]
  intro hm
  have hsubset : ∀ key ∈ KeyMap.keys (expansionTags className), key ∈ referenceFields := by
    simp [expansionTags, KeyMap.keys, referenceFields]
  exact h (hsubset field hm)

theorem get?_expansionTags_of_mem {className : String} {tag : String × Value}
    (h : tag ∈ expansionTags className) :
    tag.1 ∈ referenceFields ∧ KeyMap.get? (expansionTags className) tag.1 = some tag.2 := by
  simp only [expansionTags, List.mem_cons, List.not_mem_nil, or_false] at h
  rcases h with rfl | rfl
  · exact ⟨List.mem_cons_self, rfl⟩
  · exact ⟨List.mem_cons_of_mem _ List.mem_cons_self, rfl⟩

namespace Contents

/-- An object stands for a stored record: it is tagged, it has the class and the id, and it has all
else that is shown of it. -/
structure StandsFor (c : Contents) (p : Pointer) (stored shown : Record) : Prop where
  tag : KeyMap.get? shown "__type" = some (.str "Object")
  className : KeyMap.get? shown "className" = some (.str p.className)
  objectId : KeyMap.get? shown "objectId" = some (.str p.objectId)
  others : ∀ field, field ∉ referenceFields →
    KeyMap.get? shown field = if c.Hides p.className field then none else KeyMap.get? stored field

variable {c : Contents} {p : Pointer} {stored : Record} {field : String}

theorem get?_expanded (c : Contents) (className : String) (stored : Record) (field : String) :
    KeyMap.get? (expanded c className stored) field =
      if c.Hides className field then none
      else (KeyMap.get? stored field).or (KeyMap.get? (expansionTags className) field) := by
  rw [expanded, get?_visible, KeyMap.get?_overlay, expansionTags]

theorem get?_expanded_tag (hshown : ∀ field ∈ referenceFields, ¬ c.Hides p.className field)
    {tag : String × Value} (ht : tag ∈ expansionTags p.className) :
    KeyMap.get? (expanded c p.className stored) tag.1 =
      some ((KeyMap.get? stored tag.1).getD tag.2) := by
  obtain ⟨hm, htag⟩ := get?_expansionTags_of_mem ht
  rw [get?_expanded, if_neg (hshown tag.1 hm), htag]
  cases KeyMap.get? stored tag.1 <;> rfl

theorem get?_expanded_other (hf : field ∉ referenceFields) :
    KeyMap.get? (expanded c p.className stored) field =
      if c.Hides p.className field then none else KeyMap.get? stored field := by
  rw [get?_expanded, get?_expansionTags_of_notMem hf, Option.or_none]

theorem get?_expanded_objectId (hid : KeyMap.get? stored "objectId" = some (.str p.objectId))
    (hshown : ∀ field ∈ referenceFields, ¬ c.Hides p.className field) :
    KeyMap.get? (expanded c p.className stored) "objectId" = some (.str p.objectId) := by
  rw [get?_expanded, if_neg (hshown "objectId" (by decide)), hid, Option.some_or]

theorem standsFor_expanded_iff (hid : KeyMap.get? stored "objectId" = some (.str p.objectId))
    (hshown : ∀ field ∈ referenceFields, ¬ c.Hides p.className field) :
    c.StandsFor p stored (expanded c p.className stored) ↔
      ∀ tag ∈ expansionTags p.className, ∀ v, KeyMap.get? stored tag.1 = some v → v = tag.2 := by
  have htags : (∀ tag ∈ expansionTags p.className,
      KeyMap.get? (expanded c p.className stored) tag.1 = some tag.2) ↔
      ∀ tag ∈ expansionTags p.className, ∀ v, KeyMap.get? stored tag.1 = some v → v = tag.2 := by
    refine forall₂_congr fun tag ht => ?_
    rw [get?_expanded_tag hshown ht, Option.some.injEq]
    cases KeyMap.get? stored tag.1 <;> simp
  rw [← htags]
  simp only [expansionTags, List.forall_mem_cons]
  constructor
  · intro h
    exact ⟨h.tag, h.className, List.forall_mem_nil _⟩
  · rintro ⟨htag, hclass, -⟩
    exact ⟨htag, hclass, get?_expanded_objectId hid hshown, fun field hf => get?_expanded_other hf⟩

theorem dereference_of_pointsTo {v : Value} (hv : v.PointsTo p)
    (hf : c.fetch p.className p.objectId = some stored) :
    dereference c v = .record (expanded c p.className stored) := by
  have htag : v.typeTag? = some "Pointer" := beq_iff_eq.mp hv.tagged
  have hother : ((some "Pointer" : Option String) == some "Object") = false := by decide
  obtain ⟨fields, rfl⟩ := hv.exists_fields
  simp only [dereference, htag, hother, hv.named, hf, Bool.false_eq_true, if_false]

theorem get?_includePath_pointer (hf : c.fetch p.className p.objectId = some stored)
    {record : Record} {key : String} {v : Value} (hkey : KeyMap.get? record key = some v)
    (hv : v.PointsTo p) :
    KeyMap.get? (includePath c [key] record) key = some (.obj (expanded c p.className stored)) := by
  obtain ⟨fields, rfl⟩ := hv.exists_fields
  have hsingle : ∀ items, Value.obj fields ≠ .arr items := by
    intro items h
    cases h
  rw [get?_includePath_cons, if_pos rfl, hkey, Option.bind_some, changed_single hsingle,
    dereference_of_pointsTo hv hf]
  rfl

theorem get?_includePath_pointers (hf : c.fetch p.className p.objectId = some stored)
    {record : Record} {key : String} {items : List Value}
    (hkey : KeyMap.get? record key = some (.arr items)) :
    ∃ shown, KeyMap.get? (includePath c [key] record) key = some (.arr shown) ∧
      shown.length = items.length ∧
      ∀ (place : Nat) v, items[place]? = some v → v.PointsTo p →
        shown[place]? = some (.obj (expanded c p.className stored)) := by
  refine ⟨items.map (replaced c (includePath c [])), ?_, List.length_map _,
    fun place v hplace hv => ?_⟩
  · rw [get?_includePath_cons, if_pos rfl, hkey, Option.bind_some, changed_arr]
  · rw [List.getElem?_map, hplace, Option.map_some, replaced, dereference_of_pointsTo hv hf]
    rfl

end Contents

namespace Run

/--
At every moment of a run an include turns a pointer to a stored record, alone in its field or in a
list, into one object for that record. It has the id, and each other field that the class shows as
it is stored. Under the names of the two tags it has what the record has there, and the tags where
the record has nothing; so it stands for the record just where the record has nothing else.
-/
theorem include_stands_for (r : Run) (n : Nat) {p : Pointer} {stored : Record}
    (hf : r.fetch n p.className p.objectId = some stored)
    (hshown : ∀ field ∈ referenceFields, ¬ (r.moment n).Hides p.className field) :
    ∃ shown,
      (∀ record key v, KeyMap.get? record key = some v → v.PointsTo p →
        KeyMap.get? (includePath (r.moment n).engine.contents [key] record) key =
          some (.obj shown)) ∧
      (∀ record key items, KeyMap.get? record key = some (.arr items) → ∃ shownItems,
        KeyMap.get? (includePath (r.moment n).engine.contents [key] record) key =
          some (.arr shownItems) ∧
        shownItems.length = items.length ∧
        ∀ (place : Nat) v, items[place]? = some v → v.PointsTo p →
          shownItems[place]? = some (.obj shown)) ∧
      KeyMap.get? shown "objectId" = some (.str p.objectId) ∧
      (∀ field, field ∉ referenceFields →
        KeyMap.get? shown field =
          if (r.moment n).Hides p.className field then none else KeyMap.get? stored field) ∧
      (∀ tag ∈ expansionTags p.className,
        KeyMap.get? shown tag.1 = some ((KeyMap.get? stored tag.1).getD tag.2)) ∧
      ((r.moment n).engine.contents.StandsFor p stored shown ↔
        ∀ tag ∈ expansionTags p.className, ∀ v, KeyMap.get? stored tag.1 = some v → v = tag.2) := by
  have hid := r.keyed_moment n p.className p.objectId stored hf
  refine ⟨expanded (r.moment n).engine.contents p.className stored, fun record key v hkey hv => ?_,
    fun record key items hkey => ?_, ?_, fun field hfield => ?_, fun tag htag => ?_, ?_⟩
  · exact Contents.get?_includePath_pointer hf hkey hv
  · exact Contents.get?_includePath_pointers hf hkey
  · exact Contents.get?_expanded_objectId hid hshown
  · exact Contents.get?_expanded_other hfield
  · exact Contents.get?_expanded_tag hshown htag
  · exact Contents.standsFor_expanded_iff hid hshown

def joining (team : Record) : Run where
  settings := { objectIdLength := 1 }
  usable := Settings.valid_shortest
  clock := {}
  ids := {}
  client := .send (.create "Team" (.obj team)) fun _ =>
    .send (.create "Item" (.obj [("team", Pointer.toValue ⟨"Team", "1"⟩)])) fun _ =>
      .answer .nothing

def relatedTeam : Record :=
  [("members", .obj [("__op", .str "AddRelation"), ("objects", .arr [])]), ("name", .str "red")]

theorem include_stands_for_joining :
    ∃ item team shown, (joining relatedTeam).fetch 4 "Item" "2" = some item ∧
      KeyMap.get? item "team" = some (Pointer.toValue ⟨"Team", "1"⟩) ∧
      (joining relatedTeam).fetch 4 "Team" "1" = some team ∧
      (∀ field ∈ referenceFields, ¬ ((joining relatedTeam).moment 4).Hides "Team" field) ∧
      ((joining relatedTeam).moment 4).Hides "Team" "members" ∧
      KeyMap.get? (includePath ((joining relatedTeam).moment 4).engine.contents ["team"] item)
        "team" = some (.obj shown) ∧
      ((joining relatedTeam).moment 4).engine.contents.StandsFor ⟨"Team", "1"⟩ team shown := by
  have hitem : ∃ item, (joining relatedTeam).fetch 4 "Item" "2" = some item ∧
      KeyMap.get? item "team" = some (Pointer.toValue ⟨"Team", "1"⟩) := ⟨_, rfl, rfl⟩
  have hteam : ∃ team, (joining relatedTeam).fetch 4 "Team" "1" = some team ∧
      ∀ tag ∈ expansionTags "Team", KeyMap.get? team tag.1 = none := by
    refine ⟨_, rfl, ?_⟩
    simp only [expansionTags, List.forall_mem_cons]
    exact ⟨rfl, rfl, List.forall_mem_nil _⟩
  obtain ⟨item, hi, hpoints⟩ := hitem
  obtain ⟨team, ht, hfree⟩ := hteam
  have hshown : ∀ field ∈ referenceFields,
      ¬ ((joining relatedTeam).moment 4).Hides "Team" field := by decide +kernel
  have hhidden : ((joining relatedTeam).moment 4).Hides "Team" "members" := by decide +kernel
  obtain ⟨shown, hsingle, -, -, -, -, hstands⟩ :=
    (joining relatedTeam).include_stands_for 4 (p := ⟨"Team", "1"⟩) ht hshown
  refine ⟨item, team, shown, hi, hpoints, ht, hshown, hhidden, ?_,
    hstands.mpr fun tag htag v hv => ?_⟩
  · exact hsingle item "team" _ hpoints (Pointer.pointsTo_toValue _)
  · cases (hfree tag htag).symm.trans hv

/-- A field of the team takes the place of the class that the pointer names. -/
theorem joining_renames_class :
    ∃ item team shown, (joining [("className", .str "Other")]).fetch 4 "Item" "2" = some item ∧
      KeyMap.get? item "team" = some (Pointer.toValue ⟨"Team", "1"⟩) ∧
      (joining [("className", .str "Other")]).fetch 4 "Team" "1" = some team ∧
      (∀ field ∈ referenceFields,
        ¬ ((joining [("className", .str "Other")]).moment 4).Hides "Team" field) ∧
      KeyMap.get? (includePath ((joining [("className", .str "Other")]).moment 4).engine.contents
        ["team"] item) "team" = some (.obj shown) ∧
      KeyMap.get? shown "className" = some (.str "Other") ∧
      ¬ ((joining [("className", .str "Other")]).moment 4).engine.contents.StandsFor ⟨"Team", "1"⟩
        team shown := by
  have hshown : ∀ field ∈ referenceFields,
      ¬ ((joining [("className", .str "Other")]).moment 4).Hides "Team" field := by
    decide +kernel
  refine ⟨_, _, _, rfl, rfl, rfl, hshown, rfl, rfl, fun h => ?_⟩
  have hname : "Other" = "Team" := Value.str.inj (Option.some.inj h.className)
  exact absurd hname (by decide)

end Run

end DocumentStore
