import DocumentStore.Regex.Pattern

/-!
Quoted text in patterns. A text between the quoting marks stands for itself; where it has an end
mark of its own, the quoting ends before that, the mark stands escaped, and the quoting starts
again. What is around the quotation is left as it is.
-/

namespace DocumentStore.Pattern

/-- Ends and restarts the quoting at every end mark of a text, with the mark escaped in between. -/
def reopen : List Char → List Char
  | [] => []
  | '\\' :: 'E' :: cs => '\\' :: 'E' :: '\\' :: '\\' :: 'E' :: '\\' :: 'Q' :: reopen cs
  | c :: cs => c :: reopen cs

def quote (text : List Char) : List Char := '\\' :: 'Q' :: (reopen text ++ ['\\', 'E'])

def Unquoted (pattern : List Char) : Prop := ¬ ['\\', 'Q'] <:+: pattern

instance (pattern : List Char) : Decidable (Unquoted pattern) := inferInstanceAs (Decidable (¬ _))

variable {c : Char} {cs : List Char}

theorem unquoteFrom_false_cons (h : c = '\\' → cs.head? ≠ some 'Q') :
    unquoteFrom false (c :: cs) = c :: unquoteFrom false cs := by
  by_cases hend : c = '\\' ∧ cs.head? = some 'E'
  · obtain ⟨rfl, hhead⟩ := hend
    obtain ⟨rest, rfl⟩ := List.head?_eq_some_iff.mp hhead
    rfl
  · rw [unquoteFrom]
    · rfl
    · rintro rest rfl rfl
      exact h rfl rfl
    · rintro rest rfl rfl
      exact hend ⟨rfl, rfl⟩

theorem unquoteFrom_true_cons (h : c = '\\' → cs.head? ≠ some 'E') :
    unquoteFrom true (c :: cs) = escapeChar c ++ unquoteFrom true cs := by
  by_cases hstart : c = '\\' ∧ cs.head? = some 'Q'
  · obtain ⟨rfl, hhead⟩ := hstart
    obtain ⟨rest, rfl⟩ := List.head?_eq_some_iff.mp hhead
    rfl
  · rw [unquoteFrom]
    · rfl
    · rintro rest rfl rfl
      exact hstart ⟨rfl, rfl⟩
    · rintro rest rfl rfl
      exact h rfl rfl

theorem unquoteFrom_append_of_unquoted {pattern rest : List Char} (h : Unquoted pattern)
    (hrest : rest.head? ≠ some 'Q') :
    unquoteFrom false (pattern ++ rest) = pattern ++ unquoteFrom false rest := by
  induction pattern with
  | nil => rfl
  | cons c pattern ih =>
    have htail : Unquoted pattern := fun hmark => h (List.infix_cons hmark)
    have hmark : c = '\\' → (pattern ++ rest).head? ≠ some 'Q' := by
      rintro rfl hhead
      cases pattern with
      | nil => exact hrest hhead
      | cons d pattern =>
        obtain rfl : d = 'Q' := Option.some.inj hhead
        exact h ⟨[], pattern, rfl⟩
    rw [List.cons_append, unquoteFrom_false_cons hmark, ih htail, List.cons_append]

theorem head?_reopen_append (text rest : List Char) :
    (reopen text ++ '\\' :: rest).head? = (text ++ ['\\']).head? := by
  cases text with
  | nil => rfl
  | cons c cs =>
    unfold reopen
    split <;> simp_all

/-- What is quoted is escaped up to the end mark of the quotation, and the pattern goes on after
that. -/
theorem unquoteFrom_reopen_append (text rest : List Char) :
    unquoteFrom true (reopen text ++ '\\' :: 'E' :: rest) =
      escape text ++ unquoteFrom false rest := by
  induction text using reopen.induct with
  | case1 => rfl
  | case2 cs ih =>
    calc unquoteFrom true (reopen ('\\' :: 'E' :: cs) ++ '\\' :: 'E' :: rest)
        = '\\' :: '\\' :: 'E' :: unquoteFrom true (reopen cs ++ '\\' :: 'E' :: rest) := rfl
      _ = '\\' :: '\\' :: 'E' :: (escape cs ++ unquoteFrom false rest) := by rw [ih]
      _ = escape ('\\' :: 'E' :: cs) ++ unquoteFrom false rest := rfl
  | case3 c cs hmark ih =>
    have hkept : reopen (c :: cs) = c :: reopen cs := by rw [reopen]; exact hmark
    have hend : c = '\\' → (reopen cs ++ '\\' :: 'E' :: rest).head? ≠ some 'E' := by
      rintro rfl hhead
      rw [head?_reopen_append] at hhead
      cases cs with
      | nil => cases hhead
      | cons d cs =>
        obtain rfl : d = 'E' := Option.some.inj hhead
        exact hmark cs rfl rfl
    rw [hkept, List.cons_append, unquoteFrom_true_cons hend, ih, escape, escape, List.flatMap_cons,
      List.append_assoc]

/--
A quotation in a pattern stands for the quoted text, escaped, whatever quoting marks and backslashes
that text holds. The pattern before and after it is left as it is, also where a backslash is next to
a mark.
-/
theorem unquote_quote {before after : List Char} (hbefore : Unquoted before)
    (hafter : Unquoted after) (text : List Char) :
    unquote (before ++ quote text ++ after) = before ++ escape text ++ after := by
  have hend : unquoteFrom false after = after := by
    have h : unquoteFrom false (after ++ []) = after ++ unquoteFrom false [] :=
      unquoteFrom_append_of_unquoted hafter nofun
    rwa [List.append_nil, unquoteFrom, List.append_nil] at h
  calc unquote (before ++ quote text ++ after)
      = unquoteFrom false (before ++ '\\' :: 'Q' :: (reopen text ++ '\\' :: 'E' :: after)) := by
        simp only [unquote, quote, List.append_assoc, List.cons_append, List.nil_append]
    _ = before ++ unquoteFrom true (reopen text ++ '\\' :: 'E' :: after) := by
        rw [unquoteFrom_append_of_unquoted hbefore (by simp)]
        rfl
    _ = before ++ escape text ++ after := by rw [unquoteFrom_reopen_append, hend, List.append_assoc]

/-- The text holds both marks and ends in a backslash; there is a backslash before its quotation and
an end mark after it. -/
theorem unquote_quote_marks :
    Unquoted "^\\".toList ∧ Unquoted "\\E$".toList ∧
      unquote ("^\\".toList ++ quote "a\\E.\\Q\\".toList ++ "\\E$".toList) =
        "^\\a\\\\E\\.\\\\Q\\\\\\E$".toList :=
  ⟨by decide, by decide, unquote_quote (by decide) (by decide) _⟩

end DocumentStore.Pattern
