/-
# `Provisioning.Text.Pieces` — cutting a text at a separator

`pieces sep s` are the stretches of `s` between the separators, empty ones
included, and `joinPieces` puts them together again.  The two are inverse to
each other (`joinPieces_pieces`, `pieces_joinPieces`): a separated list of
texts without the separator loses nothing.  Path names and lists of
directories are both read this way.
-/
namespace Provisioning.Text

/-- The stretches of a text between separators.  There is always at least one. -/
def pieces (sep : Char) : List Char → List (List Char)
  | [] => [[]]
  | c :: r =>
    if c = sep then [] :: pieces sep r
    else
      match pieces sep r with
      | [] => [[c]]
      | p :: ps => (c :: p) :: ps

/-- Pieces with the separator between them. -/
def joinPieces (sep : Char) : List (List Char) → List Char
  | [] => []
  | [p] => p
  | p :: q :: ps => p ++ sep :: joinPieces sep (q :: ps)

theorem pieces_ne_nil (sep : Char) (s : List Char) : pieces sep s ≠ [] := by
  cases s with
  | nil => simp [pieces]
  | cons c r =>
    rw [pieces]
    split
    · simp
    · split <;> simp

theorem pieces_cons_of_ne {sep c : Char} (h : c ≠ sep) (r : List Char) :
    ∃ p ps, pieces sep r = p :: ps ∧ pieces sep (c :: r) = (c :: p) :: ps := by
  cases hr : pieces sep r with
  | nil => exact absurd hr (pieces_ne_nil sep r)
  | cons p ps => exact ⟨p, ps, rfl, by simp [pieces, h, hr]⟩

@[simp] theorem pieces_cons_self (sep : Char) (r : List Char) :
    pieces sep (sep :: r) = [] :: pieces sep r := by simp [pieces]

/-- No piece holds the separator. -/
theorem not_mem_of_mem_pieces {sep : Char} {s p : List Char} (h : p ∈ pieces sep s) : sep ∉ p := by
  induction s generalizing p with
  | nil => simp_all [pieces]
  | cons c r ih =>
    by_cases hc : c = sep
    · subst hc
      rw [pieces_cons_self] at h
      rcases List.mem_cons.1 h with rfl | h
      · simp
      · exact ih h
    · obtain ⟨q, qs, hr, hcr⟩ := pieces_cons_of_ne hc r
      rw [hcr] at h
      rcases List.mem_cons.1 h with rfl | h
      · have := ih (p := q) (by simp [hr])
        simp [this, Ne.symm hc]
      · exact ih (by simp [hr, h])

/-- A text is its pieces put together. -/
theorem joinPieces_pieces (sep : Char) (s : List Char) : joinPieces sep (pieces sep s) = s := by
  induction s with
  | nil => rfl
  | cons c r ih =>
    by_cases hc : c = sep
    · subst hc
      rw [pieces_cons_self]
      cases hr : pieces c r with
      | nil => exact absurd hr (pieces_ne_nil c r)
      | cons p ps => rw [joinPieces, ← hr, ih]; rfl
    · obtain ⟨p, ps, hr, hcr⟩ := pieces_cons_of_ne hc r
      rw [hcr]
      rw [hr] at ih
      cases ps with
      | nil => simpa [joinPieces] using ih
      | cons q qs => simpa [joinPieces] using ih

/-- A text before a separator is the first piece. -/
theorem pieces_append_cons {sep : Char} {p : List Char} (h : sep ∉ p) (r : List Char) :
    pieces sep (p ++ sep :: r) = p :: pieces sep r := by
  induction p with
  | nil => simp
  | cons c p ih =>
    have hc : c ≠ sep := fun e => h (by simp [e])
    have hp : sep ∉ p := fun m => h (by simp [m])
    rw [List.cons_append, pieces, if_neg hc, ih hp]

/-- A text without the separator is one piece. -/
theorem pieces_of_not_mem {sep : Char} {p : List Char} (h : sep ∉ p) : pieces sep p = [p] := by
  induction p with
  | nil => rfl
  | cons c p ih =>
    have hc : c ≠ sep := fun e => h (by simp [e])
    have hp : sep ∉ p := fun m => h (by simp [m])
    rw [pieces, if_neg hc, ih hp]

/-- Pieces without the separator are found again. -/
theorem pieces_joinPieces {sep : Char} {ps : List (List Char)} (hne : ps ≠ [])
    (h : ∀ p ∈ ps, sep ∉ p) : pieces sep (joinPieces sep ps) = ps := by
  induction ps with
  | nil => exact absurd rfl hne
  | cons p ps ih =>
    cases ps with
    | nil => exact pieces_of_not_mem (h p (by simp))
    | cons q qs =>
      rw [joinPieces, pieces_append_cons (h p (by simp)),
        ih (by simp) fun x hx => h x (List.mem_cons_of_mem _ hx)]

/-- Cutting at a separator distributes over a separator. -/
theorem pieces_append_sep (sep : Char) (s t : List Char) :
    pieces sep (s ++ sep :: t) = pieces sep s ++ pieces sep t := by
  induction s with
  | nil => simp [pieces]
  | cons c r ih =>
    by_cases hc : c = sep
    · subst hc
      rw [List.cons_append, pieces_cons_self, pieces_cons_self, ih, List.cons_append]
    · obtain ⟨p, ps, hr, hcr⟩ := pieces_cons_of_ne hc r
      rw [List.cons_append, pieces, if_neg hc, ih, hr, hcr]
      rfl

end Provisioning.Text
