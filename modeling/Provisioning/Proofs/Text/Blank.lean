/-
# `Provisioning.Proofs.Text.Blank` — a text in its surroundings

Trimming takes from a text the white space around it and nothing else.  The
two halves of that are that every text is what is left of it between two blank
ones (`exists_surrounded`), and that a text that begins and ends with
something else is found again whatever white space is put around it
(`trimChars_surrounded` with `IsSolid.trimChars_eq`).
-/
import Mathlib.Data.List.TakeWhile
import Provisioning.Text.Blank

namespace Provisioning.Text

/-- A text of nothing but white space. -/
def AllBlank (s : List Char) : Prop := ∀ c ∈ s, isBlank c = true

/-- A text that neither begins nor ends with white space. -/
structure IsSolid (s : List Char) : Prop where
  begins : ∀ c ∈ s.head?, isBlank c = false
  ends : ∀ c ∈ s.getLast?, isBlank c = false

/-! ## White space around a text -/

theorem dropBlankEnd_append_blank (s : List Char) {back : List Char} (hback : AllBlank back) :
    dropBlankEnd (s ++ back) = dropBlankEnd s := by
  induction s with
  | nil => exact dropBlankEnd_eq_nil_iff.2 hback
  | cons c r ih => rw [List.cons_append, dropBlankEnd, dropBlankEnd, ih]

theorem trimChars_append_blank (s : List Char) {back : List Char} (hback : AllBlank back) :
    trimChars (s ++ back) = trimChars s := by
  rw [trimChars, List.dropWhile_append, trimChars]
  split
  · rename_i hempty
    rw [List.isEmpty_iff.1 hempty, List.dropWhile_eq_nil_iff.2 hback]
  · exact dropBlankEnd_append_blank _ hback

/-- White space around a text is taken away with the text's own. -/
theorem trimChars_surrounded {front back : List Char} (hfront : AllBlank front)
    (hback : AllBlank back) (core : List Char) :
    trimChars (front ++ core ++ back) = trimChars core := by
  rw [trimChars_append_blank _ hback, trimChars_append hfront]

/-- Nothing but white space is taken away, and only at the two ends. -/
theorem exists_surrounded (s : List Char) :
    ∃ front back, s = front ++ trimChars s ++ back ∧ AllBlank front ∧ AllBlank back := by
  obtain ⟨back, hrest, hback⟩ := exists_blank_append_dropBlankEnd (s.dropWhile isBlank)
  refine ⟨s.takeWhile isBlank, back, ?_, fun c hc => List.mem_takeWhile_imp hc, hback⟩
  rw [List.append_assoc, trimChars, ← hrest, List.takeWhile_append_dropWhile]

theorem trimChars_eq_nil_iff {s : List Char} : trimChars s = [] ↔ AllBlank s := by
  constructor
  · intro hnil
    obtain ⟨front, back, hs, hfront, hback⟩ := exists_surrounded s
    rw [hnil, List.append_nil] at hs
    intro c hc
    rw [hs, List.mem_append] at hc
    exact hc.elim (hfront c) (hback c)
  · intro hblank
    rw [trimChars, List.dropWhile_eq_nil_iff.2 hblank]
    rfl

/-! ## A change of characters that keeps white space -/

section
variable {f : Char → Char} (hf : ∀ c, isBlank (f c) = isBlank c)
include hf

theorem dropBlankEnd_map (s : List Char) : dropBlankEnd (s.map f) = (dropBlankEnd s).map f := by
  induction s with
  | nil => rfl
  | cons c r ih =>
      rw [List.map_cons, dropBlankEnd, ih, dropBlankEnd, hf]
      cases dropBlankEnd r with
      | nil => cases isBlank c <;> rfl
      | cons d t => rfl

theorem trimChars_map (s : List Char) : trimChars (s.map f) = (trimChars s).map f := by
  have hblank : isBlank ∘ f = isBlank := funext hf
  rw [trimChars, List.dropWhile_map, hblank, dropBlankEnd_map hf, ← trimChars]

end

/-! ## What is left is solid -/

theorem not_blank_of_getLast?_dropBlankEnd (s : List Char) :
    ∀ c ∈ (dropBlankEnd s).getLast?, isBlank c = false := by
  induction s with
  | nil => intro c hc; cases hc
  | cons c r ih =>
      intro d hd
      rw [dropBlankEnd] at hd
      cases hr : dropBlankEnd r with
      | nil =>
          rw [hr] at hd
          dsimp only at hd
          split at hd
          · cases hd
          · rename_i hc
            obtain rfl : c = d := by simpa using hd
            exact eq_false_of_ne_true hc
      | cons e t =>
          rw [hr] at hd ih
          exact ih d (by simpa [List.getLast?_cons_cons] using hd)

theorem isSolid_trimChars (s : List Char) : IsSolid (trimChars s) where
  begins := by
    intro c hc
    obtain ⟨t, hrest, -⟩ := exists_blank_append_dropBlankEnd (s.dropWhile isBlank)
    have hhead : (s.dropWhile isBlank).head? = some c := by
      rw [hrest, List.head?_append, show (dropBlankEnd _).head? = some c from hc]
      rfl
    have hnot := List.head?_dropWhile_not isBlank s
    rw [hhead] at hnot
    simpa using hnot
  ends := not_blank_of_getLast?_dropBlankEnd _

/-- A solid text is left alone. -/
theorem IsSolid.trimChars_eq {s : List Char} (hs : IsSolid s) : trimChars s = s := by
  cases hlast : s.getLast? with
  | none => rw [List.getLast?_eq_none_iff.1 hlast]; rfl
  | some c =>
      obtain ⟨t, rfl⟩ := List.getLast?_eq_some_iff.1 hlast
      have hends : isBlank c = false := hs.ends c hlast
      refine trimChars_of_solid ?_ hends
      cases t with
      | nil => rfl
      | cons d r => simpa [beginsSolid] using hs.begins d rfl

end Provisioning.Text
