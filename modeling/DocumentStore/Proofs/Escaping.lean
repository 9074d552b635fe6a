import DocumentStore.Proofs.Quoting
import DocumentStore.Query.Matching

/-!
Escaped text in patterns. A pattern that is an escaped text reads as the expression of its
characters one after the other, and the machine of that finds the text wherever it stands. Two
things come in between: a backslash of the text that a `Q` follows is taken for the start of a
quotation, escaped or not, and the automaton of a long text is beyond the limit of size.
-/

namespace DocumentStore

namespace Pattern

theorem escape_cons (c : Char) (text : List Char) :
    escape (c :: text) = escapeChar c ++ escape text := rfl

theorem escape_cons_of_special {c : Char} (h : isSpecial c = true) (text : List Char) :
    escape (c :: text) = '\\' :: c :: escape text := by
  rw [escape_cons, escapeChar, if_pos h]
  rfl

theorem escape_cons_of_plain {c : Char} (h : isSpecial c = false) (text : List Char) :
    escape (c :: text) = c :: escape text := by
  rw [escape_cons, escapeChar, h]
  rfl

theorem length_le_length_escape (text : List Char) : text.length ≤ (escape text).length := by
  induction text with
  | nil => exact Nat.le_refl 0
  | cons c text ih =>
    have hchar : 1 ≤ (escapeChar c).length := by
      unfold escapeChar
      split <;> simp
    rw [escape_cons, List.length_append, List.length_cons, Nat.add_comm]
    exact Nat.add_le_add hchar ih

end Pattern

namespace Regex

open Pattern (isSpecial)

def literal (text : List Char) : Regex := concatOf (text.map .char)

namespace Reading

variable {s : Reading} {c : Char}

theorem step_of_plain (h : s.flags = {}) (hc : isSpecial c = false) (cs : List Char) :
    s.step c cs = some (s.push (.char c), cs) := by
  have hprimitive : primitive s.flags c cs = some (.char c, cs) := by
    rw [h]
    unfold primitive
    split
    all_goals first | exact absurd hc (by decide) | rfl
  unfold step
  split
  case h_9 => rw [hprimitive]; rfl
  all_goals exact absurd hc (by decide)

theorem step_of_escaped (h : s.flags = {}) (hc : isSpecial c = true) (cs : List Char) :
    s.step '\\' (c :: cs) = some (s.push (.char c), cs) := by
  have hescape : escape s.flags (c :: cs) = some (.char c, cs) := by
    rw [h]
    simp only [isSpecial, List.contains_iff_mem, List.mem_cons, List.not_mem_nil, or_false] at hc
    rcases hc with rfl | rfl | rfl | rfl | rfl | rfl | rfl | rfl | rfl | rfl | rfl | rfl | rfl |
      rfl | rfl | rfl | rfl | rfl
    all_goals rfl
  show (escape s.flags (c :: cs)).map _ = _
  rw [hescape]
  rfl

theorem run_escape (h : s.flags = {}) (text : List Char) {fuel : Nat} (hfuel : text.length < fuel) :
    run fuel s (Pattern.escape text) =
      some { s with items := (text.map .char).reverse ++ s.items } := by
  have hskip (cs : List Char) : s.flags.skip cs = cs := by rw [h]; rfl
  obtain ⟨fuel, rfl⟩ : ∃ k, fuel = k + 1 := ⟨fuel - 1, by omega⟩
  induction text generalizing s fuel with
  | nil =>
    simp only [Pattern.escape, List.flatMap_nil, run, hskip, List.map_nil, List.reverse_nil,
      List.nil_append]
  | cons c text ih =>
    obtain ⟨fuel, rfl⟩ : ∃ k, fuel = k + 1 := ⟨fuel - 1, by simp at hfuel; omega⟩
    have hpush : run (fuel + 1) (s.push (.char c)) (Pattern.escape text) =
        some { s with items := ((c :: text).map .char).reverse ++ s.items } := by
      rw [ih (s := s.push (.char c)) h hskip fuel (by simpa using hfuel)]
      simp [push]
    cases hc : isSpecial c with
    | true =>
      simp only [Pattern.escape_cons_of_special hc, run, hskip, step_of_escaped h hc]
      exact hpush
    | false =>
      simp only [Pattern.escape_cons_of_plain hc, run, hskip, step_of_plain h hc]
      exact hpush

end Reading

theorem parse?_escape (text : List Char) :
    parse? (Pattern.escape text) =
      if (literal text).isWithinLimits then some (literal text) else none := by
  have hfuel : text.length < (Pattern.escape text).length + 1 :=
    Nat.lt_succ_of_le (Pattern.length_le_length_escape text)
  have hbody : ({ items := (text.map .char).reverse ++ [] } : Reading).body = literal text := by
    rw [Reading.body, List.append_nil, List.reverse_reverse]
    rfl
  unfold parse?
  rw [Reading.run_escape rfl text hfuel]
  simp only [Option.bind_eq_bind, Option.bind_some, hbody]
  rfl

theorem sizeOfAll_map_char (text : List Char) :
    sizeOfAll (text.map .char) = stateSize * text.length := by
  induction text with
  | nil => rfl
  | cons c text ih =>
    rw [List.map_cons, sizeOfAll, ih, size, List.length_cons, Nat.mul_succ, Nat.add_comm]

theorem nestingOf_map_char (text : List Char) : nestingOf (text.map .char) ≤ 1 := by
  induction text with
  | nil => exact Nat.zero_le 1
  | cons c text ih => exact Nat.max_le.mpr ⟨Nat.le_refl 1, ih⟩

theorem capturesOfAll_map_char (text : List Char) : capturesOfAll (text.map .char) = [] := by
  induction text with
  | nil => rfl
  | cons c text ih => exact ih

theorem literal_cases (text : List Char) :
    (∃ c, text = [c] ∧ literal text = .char c) ∨ literal text = .concat (text.map .char) := by
  match text with
  | [] => exact .inr rfl
  | [c] => exact .inl ⟨c, rfl, rfl⟩
  | c :: d :: text => exact .inr rfl

theorem size_literal (text : List Char) : (literal text).size = stateSize * max 1 text.length := by
  obtain ⟨c, rfl, h⟩ | h := literal_cases text
  · rw [h]
    rfl
  · rw [h, size, sizeOfAll_map_char]
    cases text with
    | nil => rfl
    | cons c text => simp

theorem nesting_literal (text : List Char) : (literal text).nesting ≤ 1 := by
  obtain ⟨c, rfl, h⟩ | h := literal_cases text
  · rw [h]
    exact Nat.zero_le 1
  · rw [h]
    exact nestingOf_map_char text

theorem captures_literal (text : List Char) : (literal text).captures = [] := by
  obtain ⟨c, rfl, h⟩ | h := literal_cases text
  · rw [h]
    rfl
  · rw [h]
    exact capturesOfAll_map_char text

def longestLiteral : Nat := 327676

theorem isWithinLimits_literal (text : List Char) :
    (literal text).isWithinLimits = true ↔ text.length ≤ longestLiteral := by
  have hnesting : (literal text).nesting ≤ nestingLimit :=
    Nat.le_trans (nesting_literal text) (by decide)
  have htable : tableSize [] = 16 := rfl
  simp only [isWithinLimits, captures_literal, size_literal, htable, hnesting, decide_true,
    Bool.true_and, decide_eq_true_eq, stateSize, sizeLimit, longestLiteral]
  omega

end Regex

namespace Machine

/--
The sets for the rest of a text, after some characters were read. A set is marked where the text up
to it is what was read last. What was read, and the text before these sets, are given last character
first.
-/
def marks (read : List Char) : List Char → List Char → List Machine
  | _, [] => []
  | done, c :: text =>
    .chars (CharSet.single c) ((c :: done).isPrefixOf read) :: marks read (c :: done) text

theorem ofRegexes_map_char (done text : List Char) :
    ofRegexes (text.map .char) = marks [] done text := by
  induction text generalizing done with
  | nil => rfl
  | cons c text ih => rw [List.map_cons, ofRegexes, ofRegex, ih (c :: done)]; rfl

variable (place : Place) (read : List Char)

theorem shiftInTurn_marks (d : Char) (done text : List Char) :
    shiftInTurn place d (done.isPrefixOf read) (marks read done text) =
      marks (d :: read) done text := by
  induction text generalizing done with
  | nil => rfl
  | cons c text ih =>
    have hmark : (done.isPrefixOf read && (CharSet.single c).contains d) =
        (c :: done).isPrefixOf (d :: read) := by
      rw [CharSet.contains_single, List.isPrefixOf_cons_cons, Bool.and_comm]
    have hended : (accepts place (.chars (CharSet.single c) ((c :: done).isPrefixOf read)) ||
        (done.isPrefixOf read &&
          acceptsEmpty place (.chars (CharSet.single c) ((c :: done).isPrefixOf read)))) =
        (c :: done).isPrefixOf read := by
      rw [accepts, acceptsEmpty, Bool.and_false, Bool.or_false]
    rw [marks, shiftInTurn, shift, hmark, hended, ih, marks]

theorem acceptsInTurn_marks (c : Char) (done text : List Char) (ended : Bool) :
    acceptsInTurn place ended (marks read done (c :: text)) =
      ((c :: text).reverse ++ done).isPrefixOf read := by
  induction text generalizing c done ended with
  | nil => simp [marks, acceptsInTurn, accepts, acceptsEmpty]
  | cons d text ih =>
    rw [marks, acceptsInTurn, ih d (c :: done)]
    simp

theorem search_marks (c : Char) (text : List Char) (before : Option Char) (input : List Char) :
    (concat (marks read [] (c :: text))).search before input = true ↔
      ∃ taken, taken <+: input ∧ c :: text <:+ read.reverse ++ taken := by
  have hempty (place : Place) (read : List Char) :
      acceptsEmpty place (concat (marks read [] (c :: text))) = false := rfl
  have haccepts (place : Place) (read : List Char) :
      accepts place (concat (marks read [] (c :: text))) = true ↔ c :: text <:+ read.reverse := by
    rw [accepts, acceptsInTurn_marks, List.append_nil, List.isPrefixOf_iff_prefix,
      ← List.reverse_prefix, List.reverse_reverse]
  induction input generalizing before read with
  | nil => simp [search, hempty, haccepts]
  | cons d input ih =>
    have hshift (place : Place) :
        shift place d true (concat (marks read [] (c :: text))) =
          concat (marks (d :: read) [] (c :: text)) := by
      rw [shift]
      exact congrArg concat (shiftInTurn_marks place read d [] (c :: text))
    have hread (taken : List Char) : (d :: read).reverse ++ taken = read.reverse ++ d :: taken := by
      simp
    simp only [search, hempty, hshift, Bool.false_or, Bool.or_eq_true, haccepts, ih, hread,
      List.prefix_cons_iff, or_and_right, exists_or, exists_eq_left, List.append_nil]
    refine or_congr_right ⟨?_, ?_⟩
    · rintro ⟨taken, hstart, hsuffix⟩
      exact ⟨d :: taken, ⟨taken, rfl, hstart⟩, hsuffix⟩
    · rintro ⟨_, ⟨taken, rfl, hstart⟩, hsuffix⟩
      exact ⟨taken, hstart, hsuffix⟩

theorem search_concat_single (m : Machine) (before : Option Char) (input : List Char) :
    (concat [m]).search before input = m.search before input := by
  have hempty (place : Place) (m : Machine) :
      acceptsEmpty place (concat [m]) = acceptsEmpty place m := by
    simp only [acceptsEmpty, allAcceptEmpty, Bool.and_true]
  have haccepts (place : Place) (m : Machine) : accepts place (concat [m]) = accepts place m := by
    simp only [accepts, acceptsInTurn, Bool.false_and, Bool.or_false]
  induction input generalizing m before with
  | nil => simp only [search, hempty, haccepts]
  | cons d input ih =>
    have hshift (place : Place) :
        shift place d true (concat [m]) = concat [shift place d true m] := by
      simp only [shift, shiftInTurn]
    simp only [search, hempty, haccepts, hshift, ih]

/-- The machine of a text finds it in the texts that contain it. -/
theorem search_literal (text input : List Char) :
    (ofRegex (Regex.literal text)).search none input = true ↔ text <:+: input := by
  have hconcat : (concat (marks [] [] text)).search none input = true ↔ text <:+: input := by
    cases text with
    | nil =>
      cases input <;> simp [search, marks, acceptsEmpty, allAcceptEmpty]
    | cons c text =>
      rw [search_marks, List.infix_iff_suffix_prefix]
      exact exists_congr fun taken => and_comm
  obtain ⟨c, rfl, h⟩ | h := Regex.literal_cases text
  · rw [h, ofRegex, ← search_concat_single]
    exact hconcat
  · rw [h, ofRegex, ofRegexes_map_char []]
    exact hconcat

end Machine

namespace Pattern

variable {c : Char} {text : List Char}

theorem head?_escape (h : (escape text).head? = some c) (hc : c ≠ '\\') : text.head? = some c := by
  cases text with
  | nil => cases h
  | cons d text =>
    rw [escape_cons, escapeChar] at h
    split at h
    · exact absurd (Option.some.inj h).symm hc
    · exact h

theorem ne_of_isSpecial {d : Char} (hc : isSpecial c = true) (hd : isSpecial d = false) :
    c ≠ d := by
  rintro rfl
  cases hc.symm.trans hd

theorem unquoteFrom_false_escape_cons (h : c = '\\' → text.head? ≠ some 'Q') :
    unquoteFrom false (escape (c :: text)) = escapeChar c ++ unquoteFrom false (escape text) := by
  have hnext : c = '\\' → (escape text).head? ≠ some 'Q' :=
    fun hc hhead => h hc (head?_escape hhead (by decide))
  cases hc : isSpecial c with
  | true =>
    have hmark : (c :: escape text).head? ≠ some 'Q' := fun hhead =>
      ne_of_isSpecial hc (by decide) (Option.some.inj hhead)
    rw [escape_cons_of_special hc, unquoteFrom_false_cons fun _ => hmark,
      unquoteFrom_false_cons hnext, escapeChar, hc]
    rfl
  | false =>
    rw [escape_cons_of_plain hc, unquoteFrom_false_cons hnext, escapeChar, hc]
    rfl

theorem unquoteFrom_true_escape_ne (text rest : List Char) :
    unquoteFrom true (escape text) ≠ '\\' :: 'Q' :: rest := by
  cases text with
  | nil => exact nofun
  | cons c text =>
    cases hc : isSpecial c with
    | true =>
      have hmark : (c :: escape text).head? ≠ some 'E' := fun hhead =>
        ne_of_isSpecial hc (by decide) (Option.some.inj hhead)
      rw [escape_cons_of_special hc, unquoteFrom_true_cons fun _ => hmark]
      exact fun h => absurd (List.cons.inj (List.cons.inj h).2).1 (by decide)
    | false =>
      have hplain : c ≠ '\\' := (ne_of_isSpecial (by decide) hc).symm
      rw [escape_cons_of_plain hc, unquoteFrom_true_cons fun h => absurd h hplain, escapeChar, hc]
      exact fun h => hplain (List.cons.inj h).1

/-- An escaped text keeps its form exactly where no backslash of the text has a `Q` after it. -/
theorem unquote_escape_iff (text : List Char) :
    unquote (escape text) = escape text ↔ Unquoted text := by
  rw [unquote]
  induction text with
  | nil => exact ⟨fun _ => by decide, fun _ => rfl⟩
  | cons c text ih =>
    by_cases hmark : c = '\\' ∧ text.head? = some 'Q'
    · obtain ⟨rfl, hhead⟩ := hmark
      obtain ⟨text, rfl⟩ := List.head?_eq_some_iff.mp hhead
      have hmarked : ¬ Unquoted ('\\' :: 'Q' :: text) := fun h => h ⟨[], text, rfl⟩
      refine iff_of_false (fun h => ?_) hmarked
      -- The second backslash of the two begins the mark, so that only the first is left in front of
      -- the quotation.
      have hquoted : '\\' :: unquoteFrom true (escape text) = '\\' :: '\\' :: 'Q' :: escape text :=
        h
      exact unquoteFrom_true_escape_ne text _ (List.cons.inj hquoted).2
    · have hhead : c = '\\' → text.head? ≠ some 'Q' := fun hc hhead => hmark ⟨hc, hhead⟩
      have hstart : ¬ ['\\', 'Q'] <+: c :: text := by
        rintro ⟨rest, hrest⟩
        obtain ⟨rfl, rfl⟩ := List.cons.inj hrest
        exact hmark ⟨rfl, rfl⟩
      have hrest : Unquoted (c :: text) ↔ Unquoted text := by
        rw [Unquoted, List.infix_cons_iff, not_or]
        exact and_iff_right hstart
      rw [unquoteFrom_false_escape_cons hhead, escape_cons, List.append_right_inj, hrest, ih]

def escapeText (text : String) : String := .ofList (escape text.toList)

theorem source_escapeText {text : String} (h : Unquoted text.toList) :
    source (escapeText text) none = escape text.toList := by
  show unquote (escapeText text).toList = _
  rw [escapeText, String.toList_ofList]
  exact (unquote_escape_iff text.toList).mpr h

theorem compile?_escapeText {text : String} (h : Unquoted text.toList) :
    compile? (escapeText text) none =
      if text.length ≤ Regex.longestLiteral then some (.ofRegex (Regex.literal text.toList))
      else none := by
  rw [compile?, source_escapeText h, Regex.parse?_escape, apply_ite (Option.map Machine.ofRegex)]
  simp only [Regex.isWithinLimits_literal, String.length_toList]
  rfl

theorem holds_regex (contents : Contents) (find : Find) (field : Option Value) (pattern : String) :
    (FieldTest.ofValue (.obj [("$regex", .str pattern)])).holds contents find field =
      matchesPattern field (.str pattern) none := by
  show (matchesPattern field (.str pattern) none >>=
      fun held => if held then .ok true else .ok false) = _
  cases matchesPattern field (.str pattern) none with
  | error fault => rfl
  | ok held => cases held <;> rfl

theorem matchesPattern_of_compile {pattern : String} {machine : Machine}
    (h : compile? pattern none = some machine) (field : Option Value) :
    matchesPattern field (.str pattern) none =
      .ok ((field.bind Value.asText?).any machine.isMatch) := by
  cases field with
  | none => rfl
  | some v =>
    cases v with
    | str value =>
      simp only [matchesPattern, h]
      rfl
    | _ => rfl

/--
The pattern of an escaped text, where no backslash of the text has a `Q` after it, has no quotation
in it. It is well formed as long as the automaton is within the limit, and then it matches those
fields that are texts and contain the text.
-/
theorem escaped_matches_containing (text : String) (h : Unquoted text.toList) :
    unquote (escape text.toList) = escape text.toList ∧
      ((compile? (escapeText text) none).isSome = true ↔ text.length ≤ Regex.longestLiteral) ∧
      (text.length ≤ Regex.longestLiteral →
        ∀ (contents : Contents) (find : Find) (field : Option Value), ∃ held,
          (FieldTest.ofValue (.obj [("$regex", .str (escapeText text))])).holds contents find
            field = .ok held ∧
          (held = true ↔ ∃ value, field = some (.str value) ∧ text.toList <:+: value.toList)) := by
  have hcompile := compile?_escapeText h
  refine ⟨(unquote_escape_iff text.toList).mpr h, ?compiles,
    fun hlength contents find field => ?finds⟩
  case compiles =>
    rw [hcompile]
    split <;> simp_all
  case finds =>
    rw [if_pos hlength] at hcompile
    refine ⟨_,
      (holds_regex contents find field _).trans (matchesPattern_of_compile hcompile field), ?_⟩
    simp only [Option.any_eq_true, Option.bind_eq_some_iff, Value.asText?_eq_some_iff,
      Machine.isMatch, Machine.search_literal]
    constructor
    · rintro ⟨value, ⟨v, hv, rfl⟩, hfound⟩
      exact ⟨value, hv, hfound⟩
    · rintro ⟨value, hv, hfound⟩
      exact ⟨value, ⟨_, hv, rfl⟩, hfound⟩

/-- The text has marks of patterns in it and an end mark, and the field contains it twice. -/
theorem escaped_matches_containing_marks :
    Unquoted "\\E.*".toList ∧ "\\E.*".length ≤ Regex.longestLiteral ∧
      ∃ held,
        (FieldTest.ofValue (.obj [("$regex", .str (escapeText "\\E.*"))])).holds {}
          (fun _ _ => .ok []) (some (.str "a\\E.*\\E.*")) = .ok held ∧
        (held = true ↔ ∃ value, some (Value.str "a\\E.*\\E.*") = some (.str value) ∧
          "\\E.*".toList <:+: value.toList) :=
  ⟨by decide, by decide, (escaped_matches_containing "\\E.*" (by decide)).2.2 (by decide) _ _ _⟩

/--
The second of the two backslashes for the one in the text is taken for the start of a quotation, so
that the pattern is refused, or comes to another. A pattern of plain letters is refused where it is
too long.
-/
theorem escaped_mark_starts_quotation :
    unquote (escape "\\Q".toList) = ['\\'] ∧ escape "\\Q".toList = "\\\\Q".toList ∧
      (FieldTest.ofValue (.obj [("$regex", .str (escapeText "\\Q"))])).holds {} (fun _ _ => .ok [])
        (some (.str "\\Q")) = .error (.query (.pattern "\\\\Q")) ∧
      (FieldTest.ofValue (.obj [("$regex", .str (escapeText "\\Qa"))])).holds {} (fun _ _ => .ok [])
        (some (.str "\\Qa")) = .ok false ∧
      compile? (escapeText (.ofList (List.replicate 400000 'a'))) none = none := by
  refine ⟨rfl, rfl, rfl, rfl, ?_⟩
  have hunquoted : Unquoted (String.ofList (List.replicate 400000 'a')).toList := by
    rw [String.toList_ofList]
    rintro ⟨before, after, h⟩
    have hmem : '\\' ∈ List.replicate 400000 'a' := by
      rw [← h]
      simp
    exact absurd (List.eq_of_mem_replicate hmem) (by decide)
  rw [compile?_escapeText hunquoted, String.length_ofList, List.length_replicate]
  rfl

end Pattern

end DocumentStore
