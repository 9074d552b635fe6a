import DocumentStore.Proofs.Interference
import DocumentStore.Proofs.Ordered

/-!
Include paths compose. A record that an include has put in for a pointer is walked and never fetched
again, and different fields change on their own; so the order of paths makes no difference, nor does
a path that another begins with, nor a second walk.
-/

namespace DocumentStore

namespace Contents

/-- No stored record has a field `__type`, and no class hides that field. -/
structure Untagged (c : Contents) : Prop where
  stored : c.Every fun record => KeyMap.get? record "__type" = none
  shown : ∀ className, ¬ c.Hides className "__type"

theorem untagged_empty : ({} : Contents).Untagged :=
  ⟨every_empty _, fun className => not_hides_empty className "__type"⟩

theorem Untagged.insert {c : Contents} (h : c.Untagged) (className objectId : String)
    {record : Record} (hr : KeyMap.get? record "__type" = none) :
    (c.insert className objectId record).Untagged :=
  ⟨Every.insert h.stored className objectId hr, h.shown⟩

end Contents

def Record.Tagged (record : Record) : Prop := KeyMap.get? record "__type" = some (.str "Object")

section Dereferencing

variable {c : Contents} {v : Value} {fields : Record}

theorem tagged_expanded (hc : c.Untagged) {className objectId : String} {stored : Record}
    (hf : c.fetch className objectId = some stored) : (expanded c className stored).Tagged := by
  have habsent := hc.stored className objectId stored hf
  unfold Record.Tagged expanded
  rw [Contents.get?_visible, if_neg (hc.shown className), KeyMap.get?_overlay, habsent,
    Option.none_or]
  rfl

theorem dereference_of_tagged (h : fields.Tagged) :
    dereference c (.obj fields) = .record fields := by
  have htag : (Value.obj fields).typeTag? = some "Object" := by
    show (KeyMap.get? fields "__type").bind Value.asText? = _
    rw [h]
    rfl
  simp only [dereference, htag, beq_self_eq_true, if_true]

theorem tagged_of_dereference (hc : c.Untagged) (h : dereference c v = .record fields) :
    fields.Tagged := by
  unfold dereference at h
  split at h
  · rename_i given
    split at h
    · rename_i htag
      obtain rfl := Referent.record.inj h
      have htext : (KeyMap.get? given "__type").bind Value.asText? = some "Object" :=
        beq_iff_eq.mp htag
      obtain ⟨w, hw, htext⟩ := Option.bind_eq_some_iff.mp htext
      cases w with
      | str text => exact hw.trans (congrArg (some ∘ Value.str) (Option.some.inj htext))
      | _ => cases htext
    · split at h
      · cases h
      · split at h
        · cases h
        · rename_i hf
          obtain rfl := Referent.record.inj h
          exact tagged_expanded hc hf
  · cases h

theorem ordered_expanded (stored : OrderedRecord) (c : Contents) (className : String) :
    Record.Ordered (expanded c className stored) := by
  have hvalues : ∀ e ∈ expansionTags className, e.2.Ordered := by
    simp only [expansionTags, List.forall_mem_cons]
    exact ⟨.str _, .str _, List.forall_mem_nil _⟩
  have htags : Record.Ordered (expansionTags className) :=
    Record.ordered_iff.mpr ⟨(SortedRecord.tags className).2, hvalues⟩
  exact (htags.overlay (Record.ordered_iff.mp stored.2).2).without _

theorem ordered_of_dereference {c : Contents.Holding Record.Ordered} (hv : v.Ordered)
    (h : dereference c v = .record fields) : fields.Ordered := by
  obtain rfl | ⟨given, className, objectId, stored, rfl, hf, rfl⟩ := dereference_eq_record h
  · exact hv
  · exact ordered_expanded ⟨stored, c.every className objectId stored hf⟩ c className

inductive Enters (c : Contents) : Value → Record → Prop where
  | single {v : Value} {fields : Record} (found : dereference c v = .record fields) :
      Enters c v fields
  | element {items : List Value} {item : Value} {fields : Record} (mem : item ∈ items)
      (found : dereference c item = .record fields) : Enters c (.arr items) fields

theorem Enters.ordered {c : Contents.Holding Record.Ordered} (h : Enters c v fields)
    (hv : v.Ordered) :
    fields.Ordered := by
  cases h with
  | single found => exact ordered_of_dereference hv found
  | element mem found => exact ordered_of_dereference (hv.items _ mem) found

end Dereferencing

section Changes

variable {c : Contents} {f g : Record → Record}

def replaced (c : Contents) (f : Record → Record) (item : Value) : Value :=
  match dereference c item with
  | .record fields => .obj (f fields)
  | .missing => .null
  | .nothing => item

/-- What a field holds after the records that its value refers to have changed. -/
def changed (c : Contents) (f : Record → Record) : Value → Option Value
  | .arr items => some (.arr (items.map (replaced c f)))
  | v =>
    match dereference c v with
    | .record fields => some (.obj (f fields))
    | .missing => none
    | .nothing => some v

theorem changed_arr (items : List Value) :
    changed c f (.arr items) = some (.arr (items.map (replaced c f))) := rfl

theorem changed_single {v : Value} (hv : ∀ items, v ≠ .arr items) :
    changed c f v = match dereference c v with
      | .record fields => some (.obj (f fields))
      | .missing => none
      | .nothing => some v := by
  cases v with
  | arr items => exact absurd rfl (hv items)
  | _ => rfl

theorem changed_congr {v : Value} (h : ∀ fields, Enters c v fields → f fields = g fields) :
    changed c f v = changed c g v := by
  by_cases harr : ∃ items, v = .arr items
  · obtain ⟨items, rfl⟩ := harr
    have heach : ∀ item ∈ items, replaced c f item = replaced c g item := by
      intro item hitem
      unfold replaced
      cases hd : dereference c item with
      | record fields => exact congrArg Value.obj (h fields (.element hitem hd))
      | missing => rfl
      | nothing => rfl
    rw [changed_arr, changed_arr, List.map_congr_left heach]
  · have hsingle : ∀ items, v ≠ .arr items := fun items hi => harr ⟨items, hi⟩
    rw [changed_single hsingle, changed_single hsingle]
    cases hd : dereference c v with
    | record fields => exact congrArg (some ∘ Value.obj) (h fields (.single hd))
    | missing => rfl
    | nothing => rfl

theorem replaced_replaced (hc : c.Untagged)
    (hf : ∀ fields : Record, fields.Tagged → (f fields).Tagged) (item : Value) :
    replaced c g (replaced c f item) = replaced c (fun fields => g (f fields)) item := by
  cases hd : dereference c item with
  | record fields =>
    have hagain : dereference c (.obj (f fields)) = .record (f fields) :=
      dereference_of_tagged (hf fields (tagged_of_dereference hc hd))
    simp only [replaced, hd, hagain]
  | missing =>
    simp only [replaced, hd]
    rfl
  | nothing => simp only [replaced, hd]

theorem changed_changed (hc : c.Untagged)
    (hf : ∀ fields : Record, fields.Tagged → (f fields).Tagged) (v : Value) :
    (changed c f v).bind (changed c g) = changed c (fun fields => g (f fields)) v := by
  by_cases harr : ∃ items, v = .arr items
  · obtain ⟨items, rfl⟩ := harr
    have heach : replaced c g ∘ replaced c f = replaced c fun fields => g (f fields) :=
      funext (replaced_replaced hc hf)
    rw [changed_arr, Option.bind_some, changed_arr, changed_arr, List.map_map, heach]
  · have hsingle : ∀ items, v ≠ .arr items := fun items hi => harr ⟨items, hi⟩
    rw [changed_single hsingle, changed_single hsingle]
    cases hd : dereference c v with
    | record fields =>
      have hagain : dereference c (.obj (f fields)) = .record (f fields) :=
        dereference_of_tagged (hf fields (tagged_of_dereference hc hd))
      have hobject : ∀ items, Value.obj (f fields) ≠ .arr items := nofun
      show changed c g (.obj (f fields)) = _
      rw [changed_single hobject, hagain]
    | missing => rfl
    | nothing =>
      show changed c g v = _
      rw [changed_single hsingle, hd]

theorem ordered_of_changed {c : Contents.Holding Record.Ordered}
    (hf : ∀ fields : Record, fields.Ordered → (f fields).Ordered) {v w : Value} (hv : v.Ordered)
    (h : changed c f v = some w) : w.Ordered := by
  by_cases harr : ∃ items, v = .arr items
  · obtain ⟨items, rfl⟩ := harr
    obtain rfl := Option.some.inj h
    refine .arr fun w hw => ?_
    obtain ⟨item, hitem, rfl⟩ := List.mem_map.mp hw
    have hordered := hv.items item hitem
    unfold replaced
    cases hd : dereference c item with
    | record fields => exact hf fields (ordered_of_dereference hordered hd)
    | missing => exact .null
    | nothing => exact hordered
  · rw [changed_single fun items hi => harr ⟨items, hi⟩] at h
    cases hd : dereference c v with
    | record fields =>
      rw [hd] at h
      exact Option.some.inj h ▸ hf fields (ordered_of_dereference hv hd)
    | missing =>
      rw [hd] at h
      cases h
    | nothing =>
      rw [hd] at h
      exact Option.some.inj h ▸ hv

end Changes

section Paths

variable {c : Contents} {record : Record}

theorem after_inclusion (c : Contents) (rest : IncludePath) (v : Value) :
    (inclusion c rest v).after v = changed c (includePath c rest) v := by
  cases v with
  | arr items => rfl
  | _ =>
    simp only [inclusion, changed]
    generalize dereference c _ = referent
    cases referent <;> rfl

theorem get?_includePath_cons (c : Contents) (segment : String) (rest : IncludePath)
    (record : Record) (key : String) :
    KeyMap.get? (includePath c (segment :: rest) record) key =
      if key = segment then (KeyMap.get? record segment).bind (changed c (includePath c rest))
      else KeyMap.get? record key := by
  rw [get?_includePath]
  simp only [after_inclusion]

theorem Record.Tagged.includePath (h : record.Tagged) (path : IncludePath) :
    Record.Tagged (includePath c path record) := by
  cases path with
  | nil => exact h
  | cons segment rest =>
    unfold Record.Tagged
    rw [get?_includePath_cons]
    by_cases hs : "__type" = segment
    · rw [if_pos hs, ← hs, h]
      rfl
    · rw [if_neg hs]
      exact h

theorem get?_includePath_twice (hc : c.Untagged) (segment : String) (p q : IncludePath)
    (record : Record) (key : String) :
    KeyMap.get? (includePath c (segment :: p) (includePath c (segment :: q) record)) key =
      if key = segment then
        (KeyMap.get? record segment).bind (changed c fun fields =>
          includePath c p (includePath c q fields))
      else KeyMap.get? record key := by
  have htagged (fields : Record) (h : fields.Tagged) : (includePath c q fields).Tagged :=
    h.includePath q
  rw [get?_includePath_cons, get?_includePath_cons, get?_includePath_cons, if_pos rfl]
  by_cases hk : key = segment
  · rw [if_pos hk, if_pos hk, Option.bind_assoc]
    simp only [changed_changed hc htagged]
  · rw [if_neg hk, if_neg hk, if_neg hk]

variable {d : Contents.Holding Record.Ordered}

theorem ordered_includePath (d : Contents.Holding Record.Ordered) (path : IncludePath)
    (hr : record.Ordered) :
    Record.Ordered (includePath d path record) := by
  induction path generalizing record with
  | nil => exact hr
  | cons segment rest ih =>
    refine .obj (sorted_includePath hr.sorted d (segment :: rest)) fun key w hw => ?_
    rw [get?_includePath_cons] at hw
    by_cases hk : key = segment
    · rw [if_pos hk] at hw
      obtain ⟨v, hv, hw⟩ := Option.bind_eq_some_iff.mp hw
      exact ordered_of_changed (fun fields => ih) (hr.of_get? hv) hw
    · rw [if_neg hk] at hw
      exact hr.of_get? hw

def OrderedRecord.follow (record : OrderedRecord) (d : Contents.Holding Record.Ordered)
    (path : IncludePath) :
    OrderedRecord :=
  ⟨includePath d path record.1, ordered_includePath d path record.2⟩

/-- The induction is on the first path. Where the two begin with one segment, the rests of them meet
in the same records. -/
theorem includePath_comm (hd : d.Untagged) (p q : IncludePath) (record : OrderedRecord) :
    includePath d p (includePath d q record) = includePath d q (includePath d p record) := by
  induction p generalizing q record with
  | nil => rfl
  | cons s p ih =>
    cases q with
    | nil => rfl
    | cons t q =>
      refine SortedRecord.eq_of_get? ((record.toSorted.follow d (t :: q)).follow d (s :: p))
        ((record.toSorted.follow d (s :: p)).follow d (t :: q)) fun key => ?_
      change KeyMap.get? (includePath d (s :: p) (includePath d (t :: q) record)) key =
        KeyMap.get? (includePath d (t :: q) (includePath d (s :: p) record)) key
      by_cases hst : s = t
      · subst hst
        rw [get?_includePath_twice hd, get?_includePath_twice hd]
        by_cases hk : key = s
        · rw [if_pos hk, if_pos hk]
          refine Option.bind_congr fun v hv => changed_congr fun fields hfields => ?_
          exact ih q ⟨fields, hfields.ordered (record.2.of_get? hv)⟩
        · rw [if_neg hk, if_neg hk]
      · have hts : t ≠ s := Ne.symm hst
        simp only [get?_includePath_cons, if_neg hst, if_neg hts]
        by_cases hks : key = s
        · rw [hks, if_pos rfl, if_neg hst, if_pos rfl]
        · rw [if_neg hks, if_neg hks]

theorem includePath_absorbs (hd : d.Untagged) {p q : IncludePath} (hpq : p <+: q)
    (record : OrderedRecord) :
    includePath d q (includePath d p record) = includePath d q record := by
  induction p generalizing q record with
  | nil => rfl
  | cons s p ih =>
    obtain ⟨rest, rfl⟩ := hpq
    refine SortedRecord.eq_of_get? ((record.toSorted.follow d (s :: p)).follow d (s :: (p ++ rest)))
      (record.toSorted.follow d (s :: (p ++ rest))) fun key => ?_
    change KeyMap.get? (includePath d (s :: (p ++ rest)) (includePath d (s :: p) record)) key =
      KeyMap.get? (includePath d (s :: (p ++ rest)) record) key
    rw [get?_includePath_twice hd, get?_includePath_cons]
    by_cases hk : key = s
    · rw [if_pos hk, if_pos hk]
      refine Option.bind_congr fun v hv => changed_congr fun fields hfields => ?_
      exact ih (List.prefix_append p rest) ⟨fields, hfields.ordered (record.2.of_get? hv)⟩
    · rw [if_neg hk, if_neg hk]

theorem includePath_includeAll (hd : d.Untagged) (p : IncludePath) (paths : List IncludePath)
    (record : OrderedRecord) :
    includePath d p (includeAll d paths record) = includeAll d paths (includePath d p record) := by
  induction paths generalizing record with
  | nil => rfl
  | cons path paths ih =>
    exact (ih (record.follow d path)).trans
      (congrArg (includeAll d paths) (includePath_comm hd p path record))

theorem includeAll_includeAll (hd : d.Untagged) (paths : List IncludePath)
    (record : OrderedRecord) :
    includeAll d paths (includeAll d paths record) = includeAll d paths record := by
  induction paths generalizing record with
  | nil => rfl
  | cons path paths ih =>
    calc
      includeAll d (path :: paths) (includeAll d (path :: paths) record)
          = includeAll d paths (includePath d path (includeAll d paths (record.follow d path))) :=
            rfl
      _ =
        includeAll d paths (includeAll d paths (includePath d path (includePath d path record))) :=
          congrArg (includeAll d paths)
            (includePath_includeAll hd path paths (record.follow d path))
      _ = includeAll d paths (includeAll d paths (record.follow d path)) := by
          rw [includePath_absorbs hd (List.prefix_refl path) record]
          rfl
      _ = includeAll d (path :: paths) record := ih (record.follow d path)

/--
A path changes its first field, each record that the field refers to by the rest of the path. Over
any records, two paths may be expanded in either order, a path may be left out where another begins
with it, and to expand any paths a second time changes nothing.
-/
theorem expansions_compose (hd : d.Untagged) (records : List OrderedRecord) :
    (∀ record ∈ records.unattach, ∀ segment rest key,
      KeyMap.get? (includeAll d [segment :: rest] record) key =
      if key = segment then (KeyMap.get? record segment).bind (changed d (includePath d rest))
      else KeyMap.get? record key) ∧
    (∀ p q, records.unattach.map (includeAll d [p, q]) =
      records.unattach.map (includeAll d [q, p])) ∧
    (∀ p q, p <+: q →
      records.unattach.map (includeAll d [p, q]) = records.unattach.map (includeAll d [q])) ∧
    ∀ paths, (records.unattach.map (includeAll d paths)).map (includeAll d paths) =
      records.unattach.map (includeAll d paths) := by
  have hordered : ∀ record ∈ records.unattach, record.Ordered := fun _ hrecord =>
    (List.mem_unattach.mp hrecord).1
  refine ⟨fun record _ segment rest => ?_, fun p q => ?_, fun p q hpq => ?_, fun paths => ?_⟩
  · exact get?_includePath_cons d segment rest record
  · exact List.map_congr_left fun record hr => includePath_comm hd q p ⟨record, hordered record hr⟩
  · exact List.map_congr_left fun record hr =>
      includePath_absorbs hd hpq ⟨record, hordered record hr⟩
  · rw [List.map_map]
    exact List.map_congr_left fun record hr =>
      includeAll_includeAll hd paths ⟨record, hordered record hr⟩

end Paths

/-- In the stores of runs, what an include has made of a stored record it leaves as it is. -/
theorem Run.Giving.includeAll_again (r : Run.Giving Record.Ordered) (n : Nat)
    (hd : (r.moment n).engine.contents.Untagged) {className objectId : String} {record : Record}
    (hf : (r.moment n).engine.contents.fetch className objectId = some record)
    (paths : List IncludePath) :
    includeAll (r.moment n).engine.contents paths
      (includeAll (r.moment n).engine.contents paths record) =
      includeAll (r.moment n).engine.contents paths record := by
  let store := (r.engine Record.kept_ordered n).store
  exact includeAll_includeAll (d := store) hd paths
    ⟨record, store.every className objectId record hf⟩

namespace Contents

def circle : Holding Record.Ordered :=
  ((Holding.empty Record.Ordered).insert "Item" "1" first).insert "Item" "2" second
where
  first : OrderedRecord := ⟨[("next", Pointer.toValue ⟨"Item", "2"⟩)], Record.ordered_iff.mpr
    ⟨List.pairwise_singleton _ _, List.forall_mem_singleton.mpr (Pointer.ordered_toValue _)⟩⟩
  second : OrderedRecord :=
    ⟨[("gone", Pointer.toValue ⟨"Item", "9"⟩), ("next", Pointer.toValue ⟨"Item", "1"⟩)],
      Record.ordered_iff.mpr ⟨KeyMap.sorted_pair (by decide) _ _, List.forall_mem_cons.mpr
        ⟨Pointer.ordered_toValue _, List.forall_mem_singleton.mpr (Pointer.ordered_toValue _)⟩⟩⟩

theorem untagged_circle : circle.Untagged :=
  (untagged_empty.insert "Item" "1" rfl).insert "Item" "2" rfl

def circling : OrderedRecord where
  val := [("all", .arr [Pointer.toValue ⟨"Item", "1"⟩, Pointer.toValue ⟨"Item", "9"⟩, .str "x"]),
    ("seen", .obj [("__type", .str "Object"), ("next", Pointer.toValue ⟨"Item", "2"⟩)])]
  property := by
    have hall :
        (Value.arr [Pointer.toValue ⟨"Item", "1"⟩, Pointer.toValue ⟨"Item", "9"⟩,
          .str "x"]).Ordered := by
      refine .arr ?_
      simp only [List.forall_mem_cons]
      exact ⟨Pointer.ordered_toValue _, Pointer.ordered_toValue _, .str "x", List.forall_mem_nil _⟩
    have hseen :
        Record.Ordered [("__type", .str "Object"), ("next", Pointer.toValue ⟨"Item", "2"⟩)] :=
      Record.ordered_iff.mpr ⟨KeyMap.sorted_pair (by decide) _ _,
        List.forall_mem_cons.mpr ⟨.str _,
          List.forall_mem_singleton.mpr (Pointer.ordered_toValue _)⟩⟩
    exact Record.ordered_iff.mpr ⟨KeyMap.sorted_pair (by decide) _ _,
      List.forall_mem_cons.mpr ⟨hall, List.forall_mem_singleton.mpr hseen⟩⟩

/-- Both paths go round, and the second starts with the first. -/
theorem expansions_compose_circling :
    circle.Untagged ∧ (["all", "next"] : IncludePath) <+: ["all", "next", "gone"] ∧
      KeyMap.get? (includeAll circle [["all", "next"]] circling) "all" =
        (KeyMap.get? circling.1 "all").bind (changed circle (includePath circle ["next"])) ∧
      [circling].unattach.map (includeAll circle [["all", "next"], ["seen", "next", "next"]]) =
        [circling].unattach.map (includeAll circle [["seen", "next", "next"], ["all", "next"]]) ∧
      [circling].unattach.map (includeAll circle [["all", "next"], ["all", "next", "gone"]]) =
        [circling].unattach.map (includeAll circle [["all", "next", "gone"]]) ∧
      ([circling].unattach.map (includeAll circle [["all", "next"]])).map
        (includeAll circle [["all", "next"]]) =
        [circling].unattach.map (includeAll circle [["all", "next"]]) := by
  obtain ⟨hfield, hcomm, hprefix, hagain⟩ := expansions_compose untagged_circle [circling]
  have hbegins : (["all", "next"] : IncludePath) <+: ["all", "next", "gone"] := ⟨["gone"], rfl⟩
  have hall := hfield circling.1 (List.mem_singleton.mpr rfl) "all" ["next"] "all"
  rw [if_pos rfl] at hall
  exact ⟨untagged_circle, hbegins, hall, hcomm _ _, hprefix _ _ hbegins, hagain _⟩

end Contents

end DocumentStore
