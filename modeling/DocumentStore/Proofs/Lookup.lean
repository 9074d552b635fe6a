import DocumentStore.Proofs.Identity
import DocumentStore.Proofs.Reading
import DocumentStore.Proofs.Subqueries

/-!
Point reads and searches for an id. A record stands under the id that it carries, so a read of one
key and a search of the whole class for that id find the same record, and they show it alike.
-/

namespace DocumentStore

namespace Settings

theorem Valid.maxLimit_pos {s : Settings} (h : s.Valid) : 0 < s.maxLimit := by
  simp only [Valid, fault?] at h
  split at h
  · cases h
  · omega

theorem Valid.pageSize_one {s : Settings} (h : s.Valid) : s.pageSize (some 1) = 1 := by
  have hroom := h.maxLimit_pos
  simp only [pageSize, Option.getD_some]
  omega

end Settings

namespace Request

def point (className objectId : String) (includes : Value) : Request :=
  ⟨.read, className, some objectId, .obj [("include", includes)]⟩

def search (className objectId : String) (includes : Value) : Request :=
  .query className
    (.obj [("include", includes), ("limit", .num (.int 1 (by decide))),
      ("where", .obj [("objectId", .str objectId)])])

end Request

def Clause.carriesId (objectId : String) : Clause :=
  .and [.field ⟨[], "objectId"⟩ (.equals (.str objectId))]

theorem Clause.parse_objectId (objectId : String) :
    parse (.obj [("objectId", .str objectId)]) = .ok (carriesId objectId) := by
  have hkey : Operator.ofKey? "objectId" = none := by decide
  have hpath : FieldPath.parse "objectId" = ⟨[], "objectId"⟩ := by decide
  rw [parse_single (by decide) (by decide), ofEntry, hkey, hpath]
  rfl

theorem ReadParams.readFilter_of_parse {fields : Record} {clause : Clause}
    (h : Clause.parse (.obj fields) = .ok clause) :
    readFilter (some (.obj fields)) = .ok (some clause) := by
  show (Clause.parse (.obj fields)).map some = _
  rw [h]
  rfl

theorem fieldEquals_str (a b : String) :
    fieldEquals (some (.str a)) (some (.str b)) = (a == b) := by
  show ((a == b) || false || false) = (a == b)
  rw [Bool.or_false, Bool.or_false]

namespace Contents

/-- The records of a class carry the ids that they stand under. -/
def Keyed (c : Contents) (className : String) : Prop :=
  ∀ key record, c.fetch className key = some record →
    KeyMap.get? record "objectId" = some (.str key)

theorem holds_carriesId {record : Record} {key : String}
    (h : KeyMap.get? record "objectId" = some (.str key)) (c : Contents) (find : Find)
    (className objectId : String) :
    (Clause.carriesId objectId).holds c find className record = .ok (key == objectId) := by
  rw [Clause.carriesId, Clause.holds_and_single]
  show Except.ok (fieldEquals (KeyMap.get? record "objectId") (some (.str objectId))) = _
  rw [h, fieldEquals_str]

variable {c : Contents} {className : String}

theorem Keyed.eq_of_fetch (h : c.Keyed className) {key key' : String} {record : Record}
    (hf : c.fetch className key = some record) (hf' : c.fetch className key' = some record) :
    key = key' :=
  Value.str.inj (Option.some.inj ((h key record hf).symm.trans (h key' record hf')))

theorem Keyed.matching_carriesId (h : c.Keyed className) (objectId : String) :
    matching c className (.carriesId objectId) = .ok (c.fetch className objectId).toList := by
  have hholds (key : String) (record : Record) (hf : c.fetch className key = some record) :
      (Clause.carriesId objectId).holds c (matching c) className record = .ok (key == objectId) :=
    holds_carriesId (h key record hf) c (matching c) className objectId
  obtain ⟨found, hfound, hmap⟩ := matching_of_ids hholds
  have hmem := Collection.mem_ids_iff (c.collection className) objectId
  have hnodup : (c.collection className).ids.Nodup := (c.collection className).distinct
  rw [hfound]
  congr 1
  refine (List.map_inj_right fun _ _ => Option.some.inj).mp ?_
  rw [hmap, List.filter_beq, List.map_replicate, hnodup.count]
  cases hf : c.fetch className objectId with
  | none =>
    have habsent : objectId ∉ (c.collection className).ids := by
      rw [hmem]
      rintro ⟨record, hr⟩
      cases hf.symm.trans hr
    rw [if_neg habsent]
    rfl
  | some stored =>
    rw [if_pos (hmem.mpr ⟨stored, hf⟩)]
    rfl

def shown? (c : Contents) (className objectId : String) (includes : List IncludePath) :
    Option Record :=
  (c.fetch className objectId).map fun stored => c.visible className (includeAll c includes stored)

theorem readOne_point (c : Contents) (className objectId : String) (includes : Value) :
    c.readOne className objectId (.obj [("include", includes)]) =
      .ok (match c.shown? className objectId (ReadParams.readIncludes (some includes)) with
        | none => .notFound
        | some shown => .ok (.obj shown)) := by
  unfold readOne shown?
  cases c.fetch className objectId <;> rfl

def searchParams (objectId : String) (includes : Value) : ReadParams :=
  { filter := some (.carriesId objectId)
    includes := ReadParams.readIncludes (some includes)
    limit := some 1 }

theorem ofPayload_search (className objectId : String) (includes : Value) :
    ReadParams.ofPayload (Request.search className objectId includes).payload =
      .ok (searchParams objectId includes) := by
  have hfilter := ReadParams.readFilter_of_parse (Clause.parse_objectId objectId)
  show (ReadParams.readFilter (some (.obj [("objectId", .str objectId)])) >>= _) = _
  rw [hfilter]
  rfl

theorem Keyed.query_search (h : c.Keyed className) {settings : Settings} (hs : settings.Valid)
    (objectId : String) (includes : Value) :
    c.query settings className (Request.search className objectId includes).payload =
      .ok (.ok (.obj [("results", .arr
        ((c.shown? className objectId (ReadParams.readIncludes (some includes))).toList.map
          .obj))])) := by
  have hparams := ofPayload_search className objectId includes
  have hfound : c.sortedMatches className (searchParams objectId includes) =
      .ok (c.fetch className objectId).toList := by
    rw [sortedMatches_of_unsorted rfl]
    exact h.matching_carriesId objectId
  have hpage :
      c.page settings className (searchParams objectId includes)
        (c.fetch className objectId).toList =
      (c.shown? className objectId (ReadParams.readIncludes (some includes))).toList := by
    show ((List.drop 0 _).take (settings.pageSize (some 1))).map _ = _
    rw [hs.pageSize_one, shown?]
    cases c.fetch className objectId <;> rfl
  rw [query_of_matches hparams hfound settings]
  show Except.ok
      (Response.ok (.obj [("results", .arr ((c.page settings className _ _).map .obj))])) = _
  rw [hpage]

end Contents

namespace Run

theorem keyed_moment (r : Run) (n : Nat) (className : String) :
    (r.moment n).engine.contents.Keyed className := by
  intro key record hf
  obtain ⟨-, createdAt, -, hidentified, -⟩ := r.keptSince_of_fetch n hf
  exact hidentified.objectId

/--
At every moment of a run a point read is answered with 404 where the search for the id has no
results, and else with the one record that is all that the search results in. Both take the same
include paths, and neither changes the engine.
-/
theorem point_read_agrees_with_search (r : Run) (n : Nat) (nested : Serve)
    (className objectId : String) (includes : Value) :
    ∃ one many results,
      Engine.serveWith nested (.point className objectId includes) (r.moment n).engine =
        some (.ok one, (r.moment n).engine) ∧
      Engine.serveWith nested (.search className objectId includes) (r.moment n).engine =
        some (.ok many, (r.moment n).engine) ∧
      many = .ok (.obj [("results", .arr results)]) ∧
      (one.status = 404 ↔ results = []) ∧
      (one.status ≠ 404 → one.status = 200 ∧ results = [one.body]) := by
  have husable : (r.moment n).engine.settings.Valid := by
    rw [r.settings_moment n]
    exact r.usable
  have hone := (r.moment n).engine.contents.readOne_point className objectId includes
  have hmany := (r.keyed_moment n className).query_search husable objectId includes
  generalize hshown :
    (r.moment n).engine.contents.shown? className objectId
    (ReadParams.readIncludes (some includes)) = shown at hone hmany
  let answered (outcome : Outcome) : Option (Outcome × Engine) :=
    some (outcome, (r.moment n).engine)
  refine ⟨_, _, shown.toList.map .obj, congrArg answered hone, congrArg answered hmany, rfl, ?_, ?_⟩
  · cases shown with
    | none => exact ⟨fun _ => rfl, fun _ => rfl⟩
    | some fields => exact ⟨nofun, nofun⟩
  · cases shown with
    | none => exact fun h => absurd rfl h
    | some fields => exact fun _ => ⟨rfl, rfl⟩

end Run

end DocumentStore
