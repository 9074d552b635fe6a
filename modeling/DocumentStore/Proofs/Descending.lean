import DocumentStore.Query.Matching

/-!
Dotted names of fields. A dotted name is its segments with dots between them, and a field is sought
along them one at a time: only objects have fields, and every value on the way has to be there and
be truthy, or else the key fails. It fails in no other way, so that a value which is truthy but no
object, reached last, has the field as an absent one.
-/

namespace DocumentStore

namespace Text

variable {mark : Char} {cs : List Char}

theorem splitChars_eq_splitOn (mark : Char) (cs : List Char) :
    splitChars mark cs = cs.splitOn mark := by
  induction cs with
  | nil => rfl
  | cons c cs ih =>
    rw [splitChars, List.splitOn_cons_eq_if_modifyHead, ih]
    simp only [beq_iff_eq]
    split
    · rfl
    · cases hpieces : cs.splitOn mark with
      | nil => exact absurd hpieces (List.splitOn_ne_nil mark cs)
      | cons piece pieces => rfl

theorem notMem_of_mem_splitChars {piece : List Char} (h : piece ∈ splitChars mark cs) :
    mark ∉ piece := by
  induction cs generalizing piece with
  | nil =>
    obtain rfl := List.mem_singleton.mp h
    exact List.not_mem_nil
  | cons c cs ih =>
    rw [splitChars] at h
    split at h
    · rcases List.mem_cons.mp h with rfl | h
      · exact List.not_mem_nil
      · exact ih h
    · rename_i hc
      cases hpieces : splitChars mark cs with
      | nil => exact absurd hpieces (splitChars_ne_nil mark cs)
      | cons first pieces =>
        rw [hpieces] at h ih
        rcases List.mem_cons.mp h with rfl | h
        · rw [List.mem_cons, not_or]
          exact ⟨Ne.symm hc, ih List.mem_cons_self⟩
        · exact ih (List.mem_cons_of_mem first h)

theorem splitChars_eq_iff {pieces : List (List Char)} :
    splitChars mark cs = pieces ↔ pieces ≠ [] ∧ [mark].intercalate pieces = cs ∧
    ∀ piece ∈ pieces, mark ∉ piece := by
  constructor
  · rintro rfl
    refine ⟨splitChars_ne_nil mark cs, ?_, fun piece => notMem_of_mem_splitChars⟩
    rw [splitChars_eq_splitOn, List.intercalate_splitOn]
  · rintro ⟨hne, rfl, hmark⟩
    rw [splitChars_eq_splitOn, List.splitOn_intercalate mark hmark hne]

theorem split_eq_iff {text : String} {pieces : List String} :
    split mark text = pieces ↔
      pieces ≠ [] ∧ (String.singleton mark).intercalate pieces = text ∧
      ∀ piece ∈ pieces, mark ∉ piece.toList := by
  have hmap :
      split mark text = pieces ↔ splitChars mark text.toList = pieces.map String.toList := by
    rw [split]
    constructor
    · rintro rfl
      simp
    · intro h
      simp [h]
  rw [hmap, splitChars_eq_iff, ← String.toList_inj, String.toList_intercalate,
    String.toList_singleton]
  simp

end Text

namespace FieldPath

def segments (path : FieldPath) : List String := path.parents ++ [path.key]

def name (path : FieldPath) : String := ".".intercalate path.segments

theorem segments_parse (text : String) : (parse text).segments = Text.split '.' text := by
  have hne : Text.split '.' text ≠ [] := (Text.split_eq_iff.mp rfl).1
  rw [parse, segments, List.getLast?_eq_some_getLast hne, Option.getD_some]
  exact List.dropLast_concat_getLast hne

theorem segments_inj {path path' : FieldPath} : path.segments = path'.segments ↔ path = path' := by
  cases path
  cases path'
  simp [segments]

theorem parse_eq_iff {text : String} {path : FieldPath} :
    parse text = path ↔ path.name = text ∧ ∀ segment ∈ path.segments, '.' ∉ segment.toList := by
  have hne : path.segments ≠ [] := by simp [segments]
  rw [← segments_inj, segments_parse, Text.split_eq_iff]
  exact and_iff_right hne

end FieldPath

/-- The value that names lead to, each a field of the value before. What is no object has no
fields. -/
def Record.reach (record : Record) (names : List String) : Option Value :=
  names.foldlM Value.field? (.obj record)

theorem Value.isTruthy_of_field? {v w : Value} {name : String} (h : v.field? name = some w) :
    v.isTruthy = true := by
  cases v with
  | obj fields => rfl
  | _ => cases h

namespace Record

theorem reach_append (record : Record) (names rest : List String) :
    record.reach (names ++ rest) = (record.reach names).bind (rest.foldlM Value.field?) :=
  List.foldlM_append

theorem reach_eq_none_of_not_truthy {record : Record} {names longer : List String}
    (h : isTruthy (record.reach names) = false) (hlonger : names <+: longer)
    (hne : names ≠ longer) : record.reach longer = none := by
  obtain ⟨rest, rfl⟩ := hlonger
  cases rest with
  | nil => exact absurd (List.append_nil names).symm hne
  | cons name rest =>
    rw [reach_append]
    cases hreach : record.reach names with
    | none => rfl
    | some v =>
      cases hfield : v.field? name with
      | none => simp [List.foldlM_cons, hfield]
      | some w =>
        rw [hreach] at h
        cases h.symm.trans (Value.isTruthy_of_field? hfield)

end Record

theorem Value.field?_of_not_obj {v : Value} (h : ∀ fields, v ≠ .obj fields) (name : String) :
    v.field? name = none := by
  cases v with
  | obj fields => exact absurd rfl (h fields)
  | _ => rfl

theorem resolve_cons_of_not_obj {record : Record} {parent : String} {v : Value}
    (hv : KeyMap.get? record parent = some v) (h : ∀ fields, v ≠ .obj fields)
    (parents : List String) (key : String) :
    resolve record (parent :: parents) key =
      if v.isTruthy && parents.isEmpty then some none else none := by
  rw [resolve, hv]
  split
  · rename_i heq
    exact absurd (Option.some.inj heq) (h _)
  · rfl

theorem resolve_eq (record : Record) (parents : List String) (key : String) :
    resolve record parents key =
      if parents ≠ [] ∧ isTruthy (record.reach parents) = false then none
      else some ((record.reach parents).bind (·.field? key)) := by
  induction parents generalizing record with
  | nil => rfl
  | cons parent parents ih =>
    have hreach : record.reach (parent :: parents) =
        (KeyMap.get? record parent).bind (parents.foldlM Value.field?) :=
      List.foldlM_cons
    cases hv : KeyMap.get? record parent with
    | none => simp [resolve, hreach, hv, isTruthy]
    | some v =>
      rw [hv, Option.bind_some] at hreach
      by_cases hobj : ∃ nested, v = .obj nested
      · obtain ⟨nested, rfl⟩ := hobj
        have hstep : resolve record (parent :: parents) key = resolve nested parents key := by
          rw [resolve, hv]
        have hnested : record.reach (parent :: parents) = Record.reach nested parents := hreach
        rw [hstep, ih, hnested]
        -- The last object on the way is truthy, so that the key does not fail at it.
        cases parents with
        | nil => rfl
        | cons next parents => simp
      · have hscalar : ∀ fields, v ≠ .obj fields := fun fields heq => hobj ⟨fields, heq⟩
        rw [resolve_cons_of_not_obj hv hscalar]
        -- As the last parent the value decides by its truth alone; before that nothing is reached
        -- beyond it.
        cases parents with
        | nil =>
          have hlast : record.reach [parent] = some v := hreach
          cases htruthy : v.isTruthy <;>
            simp [hlast, isTruthy, htruthy, Value.field?_of_not_obj hscalar]
        | cons next parents =>
          have hpast : record.reach (parent :: next :: parents) = none := by
            rw [hreach, List.foldlM_cons, Value.field?_of_not_obj hscalar]
            rfl
          simp [hpast, isTruthy]

theorem resolve_eq_none_iff {record : Record} {parents : List String} {key : String} :
    resolve record parents key = none ↔
      ∃ names, names ≠ [] ∧ names <+: parents ∧ isTruthy (record.reach names) = false := by
  have hlast : resolve record parents key = none ↔
      parents ≠ [] ∧ isTruthy (record.reach parents) = false := by
    rw [resolve_eq]
    exact ite_eq_left_iff.trans (by simp)
  rw [hlast]
  constructor
  · rintro ⟨hne, hfalsy⟩
    exact ⟨parents, hne, List.prefix_rfl, hfalsy⟩
  · rintro ⟨names, hne, hstart, hfalsy⟩
    refine ⟨hstart.ne_nil hne, ?_⟩
    by_cases heq : names = parents
    · exact heq ▸ hfalsy
    · rw [Record.reach_eq_none_of_not_truthy hfalsy hstart heq]
      rfl

theorem resolve_eq_some_iff {record : Record} {parents : List String} {key : String}
    {field : Option Value} :
    resolve record parents key = some field ↔
      (∀ names, names ≠ [] → names <+: parents → isTruthy (record.reach names) = true) ∧
        field = (record.reach parents).bind (·.field? key) := by
  have hpasses : resolve record parents key ≠ none ↔
      ∀ names, names ≠ [] → names <+: parents → isTruthy (record.reach names) = true := by
    simp only [ne_eq, resolve_eq_none_iff, not_exists, not_and, Bool.not_eq_false]
  have hvalue (h : resolve record parents key ≠ none) :
      resolve record parents key = some ((record.reach parents).bind (·.field? key)) := by
    rw [resolve_eq] at h ⊢
    exact if_neg fun hfails => h (if_pos hfails)
  rw [← hpasses]
  constructor
  · intro h
    have hne : resolve record parents key ≠ none := by
      rw [h]
      exact Option.some_ne_none field
    exact ⟨hne, Option.some.inj (h.symm.trans (hvalue hne))⟩
  · rintro ⟨hne, rfl⟩
    exact hvalue hne

theorem resolve_of_not_obj {record : Record} {parents : List String} {v : Value}
    (hv : record.reach parents = some v) (htruthy : v.isTruthy = true)
    (h : ∀ fields, v ≠ .obj fields) (key : String) :
    resolve record parents key = some none := by
  rw [resolve_eq, hv, if_neg (by simp [isTruthy, htruthy]), Option.bind_some,
    Value.field?_of_not_obj h]

/--
A dotted name is read as the one path that it spells, in segments without dots. In a record its key
fails just where a value on the way, reached by one or more of the segments before the key, is
absent or not truthy; else the key has the value of that field in the last of them, and none where
the last is truthy but no object.
-/
theorem dotted_names_descend :
    (∀ text path, FieldPath.parse text = path ↔
      path.name = text ∧ ∀ segment ∈ path.segments, '.' ∉ segment.toList) ∧
      ∀ (record : Record) (path : FieldPath),
        (resolve record path.parents path.key = none ↔
          ∃ names, names ≠ [] ∧ names <+: path.parents ∧ isTruthy (record.reach names) = false) ∧
        (∀ field, resolve record path.parents path.key = some field ↔
          (∀ names, names ≠ [] → names <+: path.parents → isTruthy (record.reach names) = true) ∧
            field = (record.reach path.parents).bind (·.field? path.key)) ∧
        ∀ v, record.reach path.parents = some v → v.isTruthy = true → (∀ fields, v ≠ .obj fields) →
          resolve record path.parents path.key = some none := by
  refine ⟨fun _ _ => FieldPath.parse_eq_iff, fun record path =>
    ⟨resolve_eq_none_iff, fun _ => resolve_eq_some_iff, ?_⟩⟩
  intro v hv htruthy h
  exact resolve_of_not_obj hv htruthy h path.key

def housed : Record :=
  [("flag", .bool false),
    ("owner", .obj [("address", .obj [("city", .str "Oslo")]), ("tags", .arr [])])]

theorem dotted_names_descend_housed :
    FieldPath.parse "owner.address.city" = ⟨["owner", "address"], "city"⟩ ∧
      resolve housed ["owner", "address"] "city" = some (some (.str "Oslo")) ∧
      resolve housed ["flag"] "value" = none ∧ resolve housed ["owner", "phone"] "number" = none ∧
      housed.reach ["owner", "tags"] = some (.arr []) ∧
      resolve housed ["owner", "tags"] "first" = some none := by
  obtain ⟨hparse, hresolve⟩ := dotted_names_descend
  refine ⟨(hparse _ _).mpr ⟨by decide, by decide⟩, ?_, ?_, ?_, rfl, ?_⟩
  · refine ((hresolve housed ⟨["owner", "address"], "city"⟩).2.1 _).mpr
      ⟨fun names hne hstart => ?_, rfl⟩
    simp only [List.prefix_cons_iff, List.prefix_nil] at hstart
    obtain rfl | ⟨_, rfl, rfl | ⟨_, rfl, rfl⟩⟩ := hstart
    · exact absurd rfl hne
    · rfl
    · rfl
  · exact (hresolve housed ⟨["flag"], "value"⟩).1.mpr ⟨["flag"], by decide, List.prefix_rfl, rfl⟩
  · exact (hresolve housed ⟨["owner", "phone"], "number"⟩).1.mpr
      ⟨["owner", "phone"], by decide, List.prefix_rfl, rfl⟩
  · exact (hresolve housed ⟨["owner", "tags"], "first"⟩).2.2 (.arr []) rfl rfl nofun

end DocumentStore
