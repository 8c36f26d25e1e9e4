/-
# `Provisioning.Proofs.Text.Quoted` — a quoted text tells which text it is

What a character is shown as between quotes begins no other character's form:
each escape says by its second character how long it is, and a number in it
fills its whole width.  So the form of a text is read back one character at a
time.

**Stated here.**  Different texts are different between quotes
(`quoted_injective`).
-/
import Mathlib.Algebra.Group.Nat.Defs
import Provisioning.Text.Quoted

namespace Provisioning.Text

/-! ## Numbers of a fixed width -/

/-- The value of a hexadecimal digit in lower case. -/
def hexDigit (c : Char) : Nat :=
  if c.isDigit then c.toNat - '0'.toNat else c.toNat - 'a'.toNat + 10

/-- The number that hexadecimal digits stand for. -/
def hexValue (digits : List Char) : Nat := digits.foldl (fun n c => 16 * n + hexDigit c) 0

theorem hexDigit_digitChar : ∀ d < 16, hexDigit d.digitChar = d := by decide

theorem hexValue_toDigits (n : Nat) : hexValue (Nat.toDigits 16 n) = n := by
  induction n using Nat.strongRecOn with
  | ind n ih =>
      rw [Nat.toDigits_eq_if (by decide)]
      split
      · rename_i hn
        simp [hexValue, hexDigit_digitChar n hn]
      · have hhigh := ih (n / 16) (by omega)
        have hlow := hexDigit_digitChar (n % 16) (by omega)
        rw [hexValue] at hhigh
        rw [hexValue, List.foldl_append, hhigh, List.foldl_cons, List.foldl_nil, hlow]
        omega

/-- Zeros in front count for nothing. -/
theorem hexValue_hex (width n : Nat) : hexValue (hex width n) = n := by
  have hzeros : ∀ k, (List.replicate k '0').foldl (fun n c => 16 * n + hexDigit c) 0 = 0 := by
    intro k
    induction k with
    | zero => rfl
    | succ k ih =>
        rw [List.replicate_succ', List.foldl_append, ih]
        rfl
  rw [hex, hexValue, List.foldl_append, hzeros]
  exact hexValue_toDigits n

theorem length_hex {width n : Nat} (hwidth : 0 < width) (hn : n < 16 ^ width) :
    (hex width n).length = width := by
  have hlength := (Nat.length_toDigits_le_iff (by decide) hwidth).2 hn
  simp only [hex, List.length_append, List.length_replicate]
  omega

theorem hexValue_take_hex {width n : Nat} (hwidth : 0 < width) (hn : n < 16 ^ width)
    (rest : List Char) : hexValue ((hex width n ++ rest).take width) = n := by
  rw [List.take_left' (length_hex hwidth hn), hexValue_hex]

/-! ## Reading back -/

/-- The number of the character whose form a list begins with. -/
def readBack : List Char → Nat
  | '\\' :: 'n' :: _ => '\n'.toNat
  | '\\' :: 'r' :: _ => '\r'.toNat
  | '\\' :: 't' :: _ => '\t'.toNat
  | '\\' :: 'x' :: r => hexValue (r.take 2)
  | '\\' :: 'u' :: r => hexValue (r.take 4)
  | '\\' :: 'U' :: r => hexValue (r.take 8)
  | '\\' :: c :: _ => c.toNat
  | c :: _ => c.toNat
  | [] => 0

/-- The quote a text is shown between is one of two. -/
def IsQuote (q : Char) : Prop := q = '\'' ∨ q = '"'

theorem isQuote_quoteFor (s : List Char) : IsQuote (quoteFor s) := by
  unfold quoteFor
  split
  · exact .inr rfl
  · exact .inl rfl

variable {q : Char}

theorem toNat_lt (c : Char) : c.toNat < 0x110000 := by
  have hvalid := c.valid
  simp only [UInt32.isValidChar, Nat.isValidChar] at hvalid
  simp only [Char.toNat]
  omega

theorem readBack_escapeChar (hq : IsQuote q) (c : Char) (rest : List Char) :
    readBack (escapeChar q c ++ rest) = c.toNat := by
  unfold escapeChar
  split
  · subst_vars; rfl
  split
  · subst_vars; rfl
  split
  · subst_vars; rfl
  split
  · rename_i hself
    rcases (by simpa using hself : c = '\\' ∨ c = q) with rfl | rfl
    · rfl
    · rcases hq with rfl | rfl <;> rfl
  rename_i hself
  split
  · have hne : c ≠ '\\' := fun hc => hself (by simp [hc])
    rw [List.singleton_append]
    unfold readBack
    split <;> simp_all
  split
  · exact hexValue_take_hex (by decide) (by omega) rest
  split
  · exact hexValue_take_hex (by decide) (by omega) rest
  · exact hexValue_take_hex (by decide) (by have := toNat_lt c; omega) rest

theorem escapeChar_ne_nil (q c : Char) : escapeChar q c ≠ [] := by
  unfold escapeChar
  repeat' split
  all_goals simp

theorem flatMap_escapeChar_injective (hq : IsQuote q) :
    ∀ {s t : List Char}, s.flatMap (escapeChar q) = t.flatMap (escapeChar q) → s = t
  | [], [], _ => rfl
  | [], d :: t, h => by
      rw [List.flatMap_nil, List.flatMap_cons] at h
      exact absurd (List.append_eq_nil_iff.1 h.symm).1 (escapeChar_ne_nil q d)
  | c :: s, [], h => by
      rw [List.flatMap_nil, List.flatMap_cons] at h
      exact absurd (List.append_eq_nil_iff.1 h).1 (escapeChar_ne_nil q c)
  | c :: s, d :: t, h => by
      rw [List.flatMap_cons, List.flatMap_cons] at h
      have hread := congrArg readBack h
      rw [readBack_escapeChar hq, readBack_escapeChar hq] at hread
      obtain rfl : c = d := Char.toNat_inj.1 hread
      rw [flatMap_escapeChar_injective hq (List.append_cancel_left h)]

/-- Different texts are different between quotes. -/
theorem quoted_injective {s t : String} (h : quoted s = quoted t) : s = t := by
  have hchars : quotedChars s.toList = quotedChars t.toList := String.ofList_injective h
  obtain ⟨hquote, hrest⟩ := List.cons.inj hchars
  rw [← hquote] at hrest
  exact String.toList_inj.1
    (flatMap_escapeChar_injective (isQuote_quoteFor s.toList) (List.append_cancel_right hrest))

end Provisioning.Text
