/-
# `Provisioning.Text.Given` — options that are there but empty

A text option that is present but empty counts as not given.  `given` is that
reading; where a step only asks whether the option is present, it does not use
it.
-/
namespace Provisioning

/-- The text of an option, when there is one and it is not empty. -/
def given : Option String → Option String
  | none => none
  | some s => if s = "" then none else some s

@[simp] theorem given_none : given none = none := rfl

theorem given_some_of_ne {s : String} (h : s ≠ "") : given (some s) = some s := if_neg h

theorem given_eq_some_iff {o : Option String} {s : String} :
    given o = some s ↔ o = some s ∧ s ≠ "" := by
  cases o with
  | none => simp
  | some t =>
    by_cases h : t = ""
    · subst h
      simp only [given, if_true, Option.some.injEq]
      constructor
      · intro e; cases e
      · intro e; exact absurd e.1.symm e.2
    · simp only [given, if_neg h, Option.some.injEq]
      constructor
      · intro e; exact ⟨e, e ▸ h⟩
      · intro e; exact e.1

end Provisioning
