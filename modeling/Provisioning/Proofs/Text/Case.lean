/-
# `Provisioning.Proofs.Text.Case` — what lower case keeps and what it forgets

Neither lower case nor case folding makes a character vanish, so a name that
is not empty is compared as one that is not.

Lower case forgets the case of ASCII letters (`lowerChars_map_toLower`).  That
is no matter of one character alone: a sigma is written by its neighbours, and
an ASCII letter is a neighbour with a case in both of its forms.
-/
import Provisioning.Text.Blank
import Provisioning.Text.Case

namespace Provisioning.Text

theorem lowerAt_ne_nil (afterCased : Bool) (c : Char) (rest : List Char) :
    lowerAt afterCased c rest ≠ [] := by
  unfold lowerAt
  split
  · exact List.cons_ne_nil _ _
  · split <;> exact List.cons_ne_nil _ _

theorem lower_eq_empty_iff {s : String} : lower s = "" ↔ s = "" := by
  constructor
  · intro hlower
    have hchars : lowerChars false s.toList = [] := by rw [← lower_toList, hlower]; rfl
    cases hs : s.toList with
    | nil => exact String.toList_eq_nil_iff.1 hs
    | cons c rest =>
        rw [hs] at hchars
        exact absurd (List.append_eq_nil_iff.1 hchars).1 (lowerAt_ne_nil _ _ _)
  · rintro rfl
    decide

theorem foldChar_ne_nil (c : Char) : foldChar c ≠ [] := by
  unfold foldChar
  split
  · exact List.cons_ne_nil _ _
  · split
    · rename_i image himage
      obtain ⟨before, after, hrows, -⟩ := List.lookup_eq_some_iff.1 himage
      have hfull : foldExpansions.all (fun row => !row.2.isEmpty) = true := by decide
      have hrow := List.all_eq_true.1 hfull (c.toNat, image) (by simp [hrows])
      intro hmap
      rw [List.map_eq_nil_iff.1 hmap] at hrow
      exact nomatch hrow
    · split <;> exact List.cons_ne_nil _ _

theorem fold_eq_empty_iff {s : String} : fold s = "" ↔ s = "" := by
  constructor
  · intro hfold
    have hchars : s.toList.flatMap foldChar = [] := by rw [← fold_toList, hfold]; rfl
    cases hs : s.toList with
    | nil => exact String.toList_eq_nil_iff.1 hs
    | cons c rest =>
        rw [hs, List.flatMap_cons] at hchars
        exact absurd (List.append_eq_nil_iff.1 hchars).1 (foldChar_ne_nil c)
  · rintro rfl
    decide

/-! ## The case of ASCII letters -/

/-- The codes of the ASCII capitals. -/
def capitalCodes : List Nat := List.range' 65 26

theorem toLower_of_not_capital {c : Char} (hc : c.toNat ∉ capitalCodes) : c.toLower = c := by
  unfold Char.toLower
  refine dif_neg fun ⟨hfirst, hlast⟩ => hc ?_
  have hlow : 65 ≤ c.toNat := UInt32.le_iff_toNat_le.1 hfirst
  have hhigh : c.toNat ≤ 90 := UInt32.le_iff_toNat_le.1 hlast
  exact List.mem_range'_1.2 ⟨hlow, by omega⟩

/-- What is the same for an ASCII capital and its small letter is the same for the two cases of every
character. -/
theorem map_toLower_of_capitals {α : Type} {f : Char → α}
    (hf : ∀ n ∈ capitalCodes, f (Char.ofNat n).toLower = f (Char.ofNat n)) (c : Char) :
    f c.toLower = f c := by
  by_cases hc : c.toNat ∈ capitalCodes
  · have hcode := hf c.toNat hc
    rwa [Char.ofNat_toNat] at hcode
  · rw [toLower_of_not_capital hc]

theorem isBlank_toLower (c : Char) : isBlank c.toLower = isBlank c :=
  map_toLower_of_capitals (by decide +kernel) c

theorem isCased_toLower (c : Char) : isCased c.toLower = isCased c :=
  map_toLower_of_capitals (by decide +kernel) c

theorem isCaseIgnorable_toLower (c : Char) : isCaseIgnorable c.toLower = isCaseIgnorable c :=
  map_toLower_of_capitals (by decide +kernel) c

theorem lowerChar_toLower (c : Char) : lowerChar c.toLower = lowerChar c :=
  map_toLower_of_capitals (by decide +kernel) c

theorem toLower_eq_iff {c d : Char}
    (hd : ∀ n ∈ capitalCodes, decide ((Char.ofNat n).toLower = d) = decide (Char.ofNat n = d)) :
    c.toLower = d ↔ c = d :=
  decide_eq_decide.1 (map_toLower_of_capitals (f := fun c => decide (c = d)) hd c)

theorem beginsCased_map_toLower (s : List Char) : beginsCased (s.map Char.toLower) = beginsCased s := by
  have hskipped : isCaseIgnorable ∘ Char.toLower = isCaseIgnorable := funext isCaseIgnorable_toLower
  rw [beginsCased, List.dropWhile_map, hskipped, beginsCased]
  cases s.dropWhile isCaseIgnorable with
  | nil => rfl
  | cons c rest => exact isCased_toLower c

theorem lowerAt_toLower (afterCased : Bool) (c : Char) (rest : List Char) :
    lowerAt afterCased c.toLower (rest.map Char.toLower) = lowerAt afterCased c rest := by
  unfold lowerAt
  rw [beginsCased_map_toLower, lowerChar_toLower]
  have hsigma : c.toLower = 'Σ' ↔ c = 'Σ' := toLower_eq_iff (by decide +kernel)
  have hdotted : c.toLower = 'İ' ↔ c = 'İ' := toLower_eq_iff (by decide +kernel)
  simp only [hsigma, hdotted]

/-- The lower case of a text does not depend on the case of its ASCII letters, although it may depend
on their being letters. -/
theorem lowerChars_map_toLower (afterCased : Bool) (s : List Char) :
    lowerChars afterCased (s.map Char.toLower) = lowerChars afterCased s := by
  induction s generalizing afterCased with
  | nil => rfl
  | cons c rest ih =>
      rw [List.map_cons, lowerChars, lowerChars, lowerAt_toLower, isCaseIgnorable_toLower,
        isCased_toLower, ih]

end Provisioning.Text
