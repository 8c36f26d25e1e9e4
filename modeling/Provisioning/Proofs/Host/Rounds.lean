/-
# `Provisioning.Proofs.Host.Rounds` — one call after another

Whoever uses a backend calls it many times, and goes on after a call that
failed.  A round is one call, with the host on which it was made and with what
it ended in.  Every round begins on the host that the one before left.

    rounds         the calls in order, each as a round
    hostAfterAll   the host that the last of them leaves

**Stated here.**  What each call keeps true is true wherever a round begins
(`holds_before`); if each call only adds to the journal, then what is read off the
journal at last is read off what the rounds added, one after the other
(`filterMap_hostAfterAll`); and two backends that go alike call by call go alike
throughout (`forall₂_rounds`).
-/
import Mathlib.Data.List.Forall2
import Provisioning.Proofs.Host.Alike
import Provisioning.Proofs.Host.Growth

namespace Provisioning.Run

variable {κ α : Type}

/-- A call that was made, the host on which it was, and how it ended. -/
structure Round (κ α : Type) where
  call : κ
  before : Host
  result : EStateM.Result Fault Host α

namespace Round

/-- The host that the call leaves. -/
def after (r : Round κ α) : Host :=
  match r.result with
  | .ok _ h => h
  | .error _ h => h

/-- What the call returned, if it did. -/
def value? (r : Round κ α) : Option α :=
  match r.result with
  | .ok a _ => some a
  | .error _ _ => none

/-- What was written down during the call. -/
def own (r : Round κ α) : Journal := r.after.journal.drop r.before.journal.length

theorem own_eq {r : Round κ α} {es : Journal} (hafter : r.after.journal = r.before.journal ++ es) :
    r.own = es := by rw [own, hafter, List.drop_left]

end Round

variable (act : κ → Run α)

/-- The round of a call on a host. -/
def roundOn (c : κ) (h : Host) : Round κ α := ⟨c, h, act c h⟩

/-- The rounds of some calls, the first of them on the host `h`. -/
def rounds : List κ → Host → List (Round κ α)
  | [], _ => []
  | c :: cs, h => roundOn act c h :: rounds cs (roundOn act c h).after

/-- The host that some calls leave, the first of them made on the host `h`. -/
def hostAfterAll (cs : List κ) (h : Host) : Host :=
  cs.foldl (fun h c => (roundOn act c h).after) h

variable {act} {R : Host → Host → Prop} {cs : List κ} {h : Host} {r : Round κ α}

theorem after_roundOn (c : κ) (h : Host) : (roundOn act c h).after = (act c).hostAfter h := rfl

theorem hostAfterAll_cons (c : κ) (cs : List κ) (h : Host) :
    hostAfterAll act (c :: cs) h = hostAfterAll act cs (roundOn act c h).after := rfl

/-- A round is one of the calls, made on some host. -/
theorem of_mem_rounds (hr : r ∈ rounds act cs h) : r.call ∈ cs ∧ r = roundOn act r.call r.before := by
  induction cs generalizing h with
  | nil => exact nomatch hr
  | cons c cs ih =>
      rcases List.mem_cons.1 hr with rfl | hr
      · exact ⟨List.mem_cons_self, rfl⟩
      · obtain ⟨hcall, hround⟩ := ih hr
        exact ⟨List.mem_cons_of_mem _ hcall, hround⟩

/-- What every call keeps true is true wherever a round begins. -/
theorem holds_before {P : Host → Prop} (hact : ∀ c ∈ cs, ∀ h, P h → P ((act c).hostAfter h))
    (hr : r ∈ rounds act cs h) (hP : P h) : P r.before := by
  induction cs generalizing h with
  | nil => exact nomatch hr
  | cons c cs ih =>
      rcases List.mem_cons.1 hr with rfl | hr
      · exact hP
      · exact ih (fun c' hc' => hact c' (List.mem_cons_of_mem _ hc')) hr
          (hact c List.mem_cons_self h hP)

/-- What is read off a journal, event by event, is read off what a round adds to it. -/
theorem filterMap_own {τ : Type} (f : Event → Option τ) {c : κ} {read : List τ}
    (hact : Leads (Host.Grows fun _ => True) (act c))
    (hread : ((act c).hostAfter h).journal.filterMap f = h.journal.filterMap f ++ read) :
    (roundOn act c h).own.filterMap f = read := by
  obtain ⟨es, hj, -⟩ := hact h
  rw [Round.own_eq (r := roundOn act c h) hj]
  rw [hj, List.filterMap_append] at hread
  exact List.append_cancel_left hread

/-- And what is read off the journal at last is read off the rounds, one after the other. -/
theorem filterMap_hostAfterAll {τ : Type} (f : Event → Option τ)
    (hact : ∀ c, Leads (Host.Grows fun _ => True) (act c)) (cs : List κ) (h : Host) :
    (hostAfterAll act cs h).journal.filterMap f =
      h.journal.filterMap f ++ (rounds act cs h).flatMap fun r => r.own.filterMap f := by
  induction cs generalizing h with
  | nil => simp [hostAfterAll, rounds]
  | cons c cs ih =>
      obtain ⟨es, hj, -⟩ := hact c h
      have hown : (roundOn act c h).own = es := Round.own_eq hj
      rw [hostAfterAll_cons, ih, rounds, List.flatMap_cons, hown, after_roundOn, hj,
        List.filterMap_append, List.append_assoc]

/-! ## Two backends side by side -/

section
variable {act' : κ → Run α} {h' : Host}

/-- Calls that go alike one by one go alike throughout. -/
theorem forall₂_rounds (hact : ∀ c ∈ cs, Alike Eq R (act c) (act' c)) (hR : R h h') :
    List.Forall₂ (fun r r' => EndsAlike Eq R r.result r'.result) (rounds act cs h)
      (rounds act' cs h') := by
  induction cs generalizing h h' with
  | nil => exact .nil
  | cons c cs ih =>
      have hends : EndsAlike Eq R (act c h) (act' c h') := hact c List.mem_cons_self h h' hR
      refine .cons hends (ih (fun c' hc' => hact c' (List.mem_cons_of_mem _ hc')) ?_)
      unfold Round.after roundOn
      dsimp only
      generalize act c h = result, act' c h' = result' at hends
      cases hends with
      | ok hvalue hstate => exact hstate
      | error hstate => exact hstate

theorem map_value?_of_forall₂ {rs rs' : List (Round κ α)}
    (halike : List.Forall₂ (fun r r' => EndsAlike Eq R r.result r'.result) rs rs') :
    rs.map Round.value? = rs'.map Round.value? := by
  induction halike with
  | nil => rfl
  | @cons r r' rs rs' hends _ ih =>
      have hvalue : r.value? = r'.value? := by
        unfold Round.value?
        generalize r.result = result, r'.result = result' at hends
        cases hends with
        | ok hvalue _ => exact congrArg some hvalue
        | error _ => rfl
      rw [List.map_cons, List.map_cons, hvalue, ih]

end

end Provisioning.Run
