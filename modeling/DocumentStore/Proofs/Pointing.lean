import DocumentStore.Proofs.Fetching

/-!
Pointers that a sub-query follows. A field points into a sub-query by the id that it carries: the
record of the sub-query's class under that id has to be among its matches. The class that the
pointer names is not looked at.
-/

namespace DocumentStore

/-- The name of a field: not a path of several names, and not marked like the name of an
operator. -/
structure PlainName (name : String) : Prop where
  undotted : '.' ∉ name.toList
  unmarked : name.toList.head? ≠ some '$'

namespace PlainName

variable {name : String}

theorem ne_of_marked (h : PlainName name) {other : String} (ho : other.toList.head? = some '$') :
    name ≠ other := by
  rintro rfl
  exact h.unmarked ho

theorem ofKey?_eq_none (h : PlainName name) : Operator.ofKey? name = none := by
  refine List.find?_eq_none.mpr fun op _ hkey => ?_
  exact h.ne_of_marked op.head?_key (beq_iff_eq.mp hkey).symm

theorem parse_eq (h : PlainName name) : FieldPath.parse name = ⟨[], name⟩ := by
  rw [FieldPath.parse, Text.split, Text.splitChars_of_notMem h.undotted, List.map_singleton,
    String.ofList_toList]
  rfl

end PlainName

def testing (op : Operator) (field : String) (param : Value) : Value :=
  .obj [(field, .obj [(op.key, param)])]

def pointing (op : Operator) (field className : String) (clause : Value) : Value :=
  .obj [(field, .obj [(op.key, .obj [("className", .str className), ("where", clause)])])]

namespace Clause

variable {field : String}

theorem parse_testing (h : PlainName field) (op : Operator) (param : Value) :
    parse (testing op field param) =
      .ok (.and [.field ⟨[], field⟩ (.constraints [.operator op param])]) := by
  have huntagged : (Value.obj [(op.key, param)]).typeTag? = none := by
    have htag : op.key ≠ "__type" := by cases op <;> decide
    simp [Value.typeTag?, Value.textField?, Value.field?, KeyMap.get?, htag]
  rw [testing, parse_single (h.ne_of_marked (by decide)) (h.ne_of_marked (by decide)), ofEntry,
    h.ofKey?_eq_none, h.parse_eq]
  simp only [FieldTest.ofValue, Value.isPointer, Value.isDate, huntagged, List.map_cons,
    List.map_nil, Constraint.ofEntry, Operator.ofKey?_key]
  rfl

theorem parse_pointing (h : PlainName field) (op : Operator) (className : String) (clause : Value) :
    parse (pointing op field className clause) = .ok (.and [.field ⟨[], field⟩
      (.constraints [.operator op (.obj [("className", .str className), ("where", clause)])])]) :=
  parse_testing h op _

theorem holds_single (contents : Contents) (find : Find) (className : String) (record : Record)
    (op : Operator) (param : Value) :
    (and [.field ⟨[], field⟩ (.constraints [.operator op param])]).holds contents find
      className record =
      op.holds contents find (KeyMap.get? record field) param (optionsOf [.operator op param]) := by
  rw [holds_and_single, holds]
  simp only [resolve, FieldTest.holds, allHold, Constraint.holds]
  cases op.holds contents find (KeyMap.get? record field) param
    (optionsOf [.operator op param]) with
  | error fault => rfl
  | ok keep => cases keep <;> rfl

end Clause

/-- The field carries the id of one of the records. -/
def namesAmong (found : List Record) (field : Option Value) : Bool :=
  (field.bind Value.objectId?).any fun id => found.any fun record =>
    (KeyMap.get? record "objectId").bind Value.asText? == some id

theorem pointsInto_of_found {find : Find} {op : Operator} {param : Value} {found : List Record}
    (h : subQuery find op param = .ok found) (field : Option Value) :
    pointsInto find op field param = .ok (namesAmong found field) := by
  rw [pointsInto, namesAmong]
  cases field.bind Value.objectId? with
  | none => rfl
  | some id =>
    show (subQuery find op param >>= _) = _
    rw [h]
    rfl

namespace Contents

variable {c : Contents} {className target field : String} {clause : Value} {found : List Record}

def find (c : Contents) (className : String) (clause : Value) : Except Fault (List Record) := do
  matching c className (← Clause.parse clause)

theorem subQuery_eq_find (op : Operator) :
    subQuery (matching c) op (.obj [("className", .str target), ("where", clause)]) =
      c.find target clause := rfl

theorem find_inQuery (hfield : PlainName field) (hfound : c.find target clause = .ok found)
    (className : String) :
    c.find className (pointing .inQuery field target clause) =
      .ok ((c.records className).filter fun record =>
        namesAmong found (KeyMap.get? record field)) := by
  rw [find, Clause.parse_pointing hfield]
  refine matching_of_test fun record => ?_
  rw [Clause.holds_single]
  exact pointsInto_of_found ((subQuery_eq_find _).trans hfound) _

theorem find_notInQuery (hfield : PlainName field) (hfound : c.find target clause = .ok found)
    (className : String) :
    c.find className (pointing .notInQuery field target clause) =
      .ok ((c.records className).filter fun record =>
        !namesAmong found (KeyMap.get? record field)) := by
  rw [find, Clause.parse_pointing hfield]
  refine matching_of_test fun record => ?_
  rw [Clause.holds_single, Operator.holds, pointsInto_of_found ((subQuery_eq_find _).trans hfound)]
  rfl

theorem Keyed.namesAmong_iff (h : c.Keyed target) (hfound : c.find target clause = .ok found)
    {v : Value} {p : Pointer} (hv : v.PointsTo p) :
    namesAmong found (some v) = true ↔ ∃ named ∈ found, c.fetch target p.objectId = some named := by
  obtain ⟨parsed, -, hmatching⟩ := bind_eq_ok_iff.mp hfound
  have hcarries (record : Record) (hr : record ∈ found) :
      ((KeyMap.get? record "objectId").bind Value.asText? == some p.objectId) = true ↔
        c.fetch target p.objectId = some record := by
    obtain ⟨id, hf⟩ := exists_fetch_of_mem ((sublist_of_matching hmatching).subset hr)
    rw [h id record hf, beq_iff_eq]
    constructor
    · intro hid
      obtain rfl : id = p.objectId := Option.some.inj hid
      exact hf
    · intro hp
      exact congrArg some (h.eq_of_fetch hf hp)
  rw [namesAmong, Option.bind_some, Pointer.objectId?_of_ofValue? hv.named, Option.any_some,
    List.any_eq_true]
  exact exists_congr fun record => and_congr_right fun hr => hcarries record hr

end Contents

namespace Run

/--
At every moment of a run, a record with a pointer in a field is found by way of a sub-query on that
field just where the class of the sub-query has a record under the pointer's id, and that one is
among the matches. The negated test finds the other records.
-/
theorem sub_query_follows_ids (r : Run) (n : Nat) {field target : String} {clause : Value}
    {found : List Record} (hfield : PlainName field)
    (hfound : (r.moment n).engine.contents.find target clause = .ok found) (className : String) :
    ∃ hits others,
      (r.moment n).engine.contents.find className (pointing .inQuery field target clause) =
        .ok hits ∧
      (r.moment n).engine.contents.find className (pointing .notInQuery field target clause) =
        .ok others ∧
      ∀ id record, r.fetch n className id = some record →
        (record ∈ others ↔ record ∉ hits) ∧
        ∀ v p, KeyMap.get? record field = some v → v.PointsTo p →
          (record ∈ hits ↔ ∃ named ∈ found, r.fetch n target p.objectId = some named) := by
  refine ⟨_, _, Contents.find_inQuery hfield hfound className,
    Contents.find_notInQuery hfield hfound className, fun id record hf => ?_⟩
  have hmem : record ∈ (r.moment n).engine.contents.records className :=
    Contents.mem_records_of_fetch hf
  simp only [List.mem_filter, hmem, true_and]
  refine ⟨by simp, fun v p hv hp => ?_⟩
  rw [hv]
  exact (r.keyed_moment n target).namesAmong_iff hfound hp

def coinciding : Run where
  settings := { objectIdLength := 1 }
  usable := Settings.valid_shortest
  clock := {}
  ids := { scheduled := [2 ^ 124, 2 ^ 124] }
  client := .send (.create "Brand" .null) fun _ => .send (.create "User" .null) fun _ =>
    .send (.create "Item" (.obj [("brand", Pointer.toValue ⟨"Brand", "1"⟩)])) fun _ =>
      .answer .nothing

theorem plainName_brand : PlainName "brand" := ⟨by decide, by decide⟩

theorem exists_item_coinciding : ∃ item, coinciding.fetch 6 "Item" "3" = some item ∧
    KeyMap.get? item "brand" = some (Pointer.toValue ⟨"Brand", "1"⟩) := ⟨_, rfl, rfl⟩

theorem sub_query_follows_ids_coinciding :
    PlainName "brand" ∧ ∃ found hits item named,
      (coinciding.moment 6).engine.contents.find "Brand" (.obj []) = .ok found ∧
      (coinciding.moment 6).engine.contents.find "Item"
        (pointing .inQuery "brand" "Brand" (.obj [])) = .ok hits ∧
      coinciding.fetch 6 "Item" "3" = some item ∧
      KeyMap.get? item "brand" = some (Pointer.toValue ⟨"Brand", "1"⟩) ∧
      coinciding.fetch 6 "Brand" "1" = some named ∧ named ∈ found ∧ item ∈ hits := by
  have hfound : ∃ found, (coinciding.moment 6).engine.contents.find "Brand" (.obj []) = .ok found ∧
      ∃ named ∈ found, coinciding.fetch 6 "Brand" "1" = some named :=
        ⟨_, rfl, _, List.mem_cons_self, rfl⟩
  obtain ⟨found, hfound, named, hnamed, hf⟩ := hfound
  obtain ⟨item, hi, hpoints⟩ := exists_item_coinciding
  obtain ⟨hits, _, hhits, -, hlaw⟩ :=
    coinciding.sub_query_follows_ids 6 plainName_brand hfound "Item"
  have hhit : item ∈ hits :=
    ((hlaw "3" item hi).2 _ _ hpoints (Pointer.pointsTo_toValue _)).mpr ⟨named, hnamed, hf⟩
  exact ⟨plainName_brand, found, hits, item, named, hfound, hhits, hi, hpoints, hf, hnamed, hhit⟩

/-- A sub-query on users finds an item that points at a brand, by way of the user under the id of
the brand. -/
theorem coinciding_follows_other_class :
    PlainName "brand" ∧ ∃ found hits item,
      (coinciding.moment 6).engine.contents.find "User" (.obj []) = .ok found ∧
      (coinciding.moment 6).engine.contents.find "Item"
        (pointing .inQuery "brand" "User" (.obj [])) = .ok hits ∧
      coinciding.fetch 6 "Item" "3" = some item ∧
      KeyMap.get? item "brand" = some (Pointer.toValue ⟨"Brand", "1"⟩) ∧
      ¬ (item ∈ hits ↔ "Brand" = "User" ∧ ∃ named ∈ found,
        coinciding.fetch 6 "Brand" "1" = some named) := by
  have hfound : ∃ found, (coinciding.moment 6).engine.contents.find "User" (.obj []) = .ok found ∧
      ∃ named ∈ found, coinciding.fetch 6 "User" "1" = some named :=
        ⟨_, rfl, _, List.mem_cons_self, rfl⟩
  obtain ⟨found, hfound, hnamed⟩ := hfound
  obtain ⟨item, hi, hpoints⟩ := exists_item_coinciding
  have hhit : namesAmong found (KeyMap.get? item "brand") = true := by
    rw [hpoints]
    exact ((coinciding.keyed_moment 6 "User").namesAmong_iff hfound
      (Pointer.pointsTo_toValue _)).mpr hnamed
  have hstored : (coinciding.moment 6).engine.contents.fetch "Item" "3" = some item := hi
  refine ⟨plainName_brand, found, _, item, hfound,
    Contents.find_inQuery plainName_brand hfound "Item", hi, hpoints, fun h => ?_⟩
  have hclass := (h.mp (List.mem_filter.mpr ⟨Contents.mem_records_of_fetch hstored, hhit⟩)).1
  exact absurd hclass (by decide)

end Run

end DocumentStore
