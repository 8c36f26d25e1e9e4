/-
# `Provisioning.Text.Blank` — white space, trimming and lines

White space is the set of Unicode: the six ASCII blanks, the four ASCII
separators U+001C to U+001F, and the blanks beyond ASCII.  Zero-width
characters are no white space.  Nothing here depends on the letter case of a
text or on the host.

The functions work on the list of characters of a text; the last section
lifts them to `String`.
-/
namespace Provisioning.Text

/-- White space, the twenty-nine characters of Unicode. -/
def isBlank (c : Char) : Bool :=
  let n := c.toNat
  (9 ≤ n && n ≤ 13) || (0x1C ≤ n && n ≤ 0x20) || n == 0x85 || n == 0xA0 || n == 0x1680 ||
    (0x2000 ≤ n && n ≤ 0x200A) || n == 0x2028 || n == 0x2029 || n == 0x202F || n == 0x205F ||
    n == 0x3000

/-- The characters that end a line.  A carriage return and the line feed after it end one line. -/
def isLineEnd (c : Char) : Bool :=
  let n := c.toNat
  (10 ≤ n && n ≤ 13) || (0x1C ≤ n && n ≤ 0x1E) || n == 0x85 || n == 0x2028 || n == 0x2029

/-- Every line end is white space, so a trimmed text of one line stays a text of one line. -/
theorem isBlank_of_isLineEnd {c : Char} (h : isLineEnd c = true) : isBlank c = true := by
  simp only [isLineEnd, isBlank, Bool.or_eq_true, Bool.and_eq_true, decide_eq_true_eq,
    beq_iff_eq] at h ⊢
  omega

/-! ## Trimming -/

/-- The text without the blanks it ends with. -/
def dropBlankEnd : List Char → List Char
  | [] => []
  | c :: r =>
    match dropBlankEnd r with
    | [] => if isBlank c then [] else [c]
    | d :: s => c :: d :: s

/-- The text without the blanks it starts with and ends with. -/
def trimChars (s : List Char) : List Char := dropBlankEnd (s.dropWhile isBlank)

/-- The text does not begin with a blank. -/
def beginsSolid (s : List Char) : Bool := s.head?.all fun c => !isBlank c

theorem dropBlankEnd_eq_nil_iff {s : List Char} :
    dropBlankEnd s = [] ↔ ∀ c ∈ s, isBlank c = true := by
  induction s with
  | nil => simp [dropBlankEnd]
  | cons c r ih =>
    cases h : dropBlankEnd r with
    | nil =>
      have hr := ih.1 h
      by_cases hc : isBlank c = true
      · simpa [dropBlankEnd, h, hc] using hr
      · simp [dropBlankEnd, h, hc]
    | cons d s =>
      have hr : ¬ ∀ x ∈ r, isBlank x = true := fun hall => by simp [ih.2 hall] at h
      simp only [dropBlankEnd, h, reduceCtorEq, List.mem_cons, forall_eq_or_imp, false_iff]
      exact fun hall => hr hall.2

/-- A text that does not end with a blank is left alone. -/
theorem dropBlankEnd_append_of_not_blank (s : List Char) {c : Char} (h : isBlank c = false) :
    dropBlankEnd (s ++ [c]) = s ++ [c] := by
  induction s with
  | nil => simp [dropBlankEnd, h]
  | cons d r ih =>
    cases r with
    | nil => simp [dropBlankEnd, h]
    | cons e t =>
      rw [List.cons_append, dropBlankEnd, ih]
      rfl

/-- Nothing but blanks is dropped, and only at the end. -/
theorem exists_blank_append_dropBlankEnd (s : List Char) :
    ∃ t, s = dropBlankEnd s ++ t ∧ ∀ c ∈ t, isBlank c = true := by
  induction s with
  | nil => exact ⟨[], rfl, by simp⟩
  | cons c r ih =>
    obtain ⟨t, hr, ht⟩ := ih
    cases h : dropBlankEnd r with
    | nil =>
      by_cases hc : isBlank c = true
      · exact ⟨c :: r, by simp [dropBlankEnd, h, hc], by
          simpa [hc] using dropBlankEnd_eq_nil_iff.1 h⟩
      · exact ⟨r, by simp [dropBlankEnd, h, hc], dropBlankEnd_eq_nil_iff.1 h⟩
    | cons d s =>
      refine ⟨t, ?_, ht⟩
      rw [dropBlankEnd, h]
      rw [h] at hr
      exact congrArg (c :: ·) hr

/-- Blanks before a text are dropped. -/
theorem trimChars_append {b : List Char} (hb : ∀ c ∈ b, isBlank c = true) (s : List Char) :
    trimChars (b ++ s) = trimChars s := by
  rw [trimChars, List.dropWhile_append_of_pos hb, trimChars]

/-- A text that neither begins nor ends with a blank is left alone. -/
theorem trimChars_of_solid {s : List Char} {c : Char} (hbegins : beginsSolid s = true)
    (hends : isBlank c = false) : trimChars (s ++ [c]) = s ++ [c] := by
  cases s with
  | nil => simp [trimChars, dropBlankEnd, hends]
  | cons d r =>
    have hd : ¬ isBlank d = true := by simpa [beginsSolid] using hbegins
    rw [trimChars, List.cons_append, List.dropWhile_cons_of_neg hd]
    exact dropBlankEnd_append_of_not_blank (d :: r) hends

/-- What is left of a text stands in it in one piece. -/
theorem trimChars_infix (s : List Char) : trimChars s <:+: s := by
  obtain ⟨t, ht, -⟩ := exists_blank_append_dropBlankEnd (s.dropWhile isBlank)
  have hbegins : trimChars s <+: s.dropWhile isBlank := ⟨t, ht.symm⟩
  exact hbegins.isInfix.trans (List.dropWhile_suffix isBlank).isInfix

/-! ## Lines -/

/-- The lines of a text, without their ends.  A text that ends with a line end has no empty last line. -/
def splitLines : List Char → List (List Char)
  | [] => []
  | '\r' :: '\n' :: r => [] :: splitLines r
  | c :: r =>
    if isLineEnd c then [] :: splitLines r
    else
      match splitLines r with
      | [] => [[c]]
      | l :: ls => (c :: l) :: ls

/-- There is no line end in the text. -/
def isOneLine (s : List Char) : Bool := s.all fun c => !isLineEnd c

@[simp] theorem isOneLine_cons (c : Char) (s : List Char) :
    isOneLine (c :: s) = (!isLineEnd c && isOneLine s) := rfl

@[simp] theorem isOneLine_append (s s' : List Char) :
    isOneLine (s ++ s') = (isOneLine s && isOneLine s') := List.all_append

/-- The end of a line, a line feed alone or after a carriage return. -/
def lineEnd (returns : Bool) : List Char := if returns then ['\r', '\n'] else ['\n']

theorem splitLines_lineEnd_append (returns : Bool) (rest : List Char) :
    splitLines (lineEnd returns ++ rest) = [] :: splitLines rest := by
  cases returns with
  | true => rfl
  | false => simp [lineEnd, splitLines, isLineEnd]

/-- The first line of a text is what stands before its end. -/
theorem splitLines_line_append (returns : Bool) {line : List Char}
    (hline : isOneLine line = true) (rest : List Char) :
    splitLines (line ++ (lineEnd returns ++ rest)) = line :: splitLines rest := by
  induction line with
  | nil => exact splitLines_lineEnd_append returns rest
  | cons c r ih =>
    obtain ⟨hc, hr⟩ : isLineEnd c = false ∧ isOneLine r = true := by simpa using hline
    have hreturn : c ≠ '\r' := by
      rintro rfl
      exact absurd hc (by decide)
    rw [List.cons_append, splitLines, if_neg (by simp [hc]), ih hr]
    simp [hreturn]

/-- Lines that were ended one after the other are read back. -/
theorem splitLines_ended (returns : Bool) {lines : List (List Char)}
    (hlines : ∀ line ∈ lines, isOneLine line = true) :
    splitLines (lines.flatMap fun line => line ++ lineEnd returns) = lines := by
  induction lines with
  | nil => rfl
  | cons line rest ih =>
    rw [List.flatMap_cons, List.append_assoc,
      splitLines_line_append returns (hlines line List.mem_cons_self),
      ih fun l hl => hlines l (List.mem_cons_of_mem _ hl)]

/-! ## On `String` -/

/-- The text without surrounding white space. -/
def trim (s : String) : String := String.ofList (trimChars s.toList)

/-- The lines of a text. -/
def lines (s : String) : List String := (splitLines s.toList).map String.ofList

end Provisioning.Text
