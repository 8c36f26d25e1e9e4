/-
# `Provisioning.Proofs.Host.Failure` — what a step fails with on one host

`FailsWith act h e` says that the step fails with `e` when it begins on `h`.  A
sequence fails with what its first step fails with, or else with what the next
one fails with, on the host that the first has left.  So of a program or an
account nothing is left in the end but how the start of a program fails on that
host (`Host.StartFails`).

Refusals are set apart from everything else (`Fault.Uncaught`), since they are
what is collected when something is done for every item of a list.
-/
import Provisioning.Account.Resolver
import Provisioning.Proofs.Host.Command

namespace Provisioning

/-- Not a refusal, so it is not collected with the others. -/
def Fault.Uncaught (e : Fault) : Prop := ∀ r, e ≠ .refused r

theorem Fault.uncaught_or_refused (e : Fault) : e.Uncaught ∨ ∃ r, e = .refused r := by
  cases e with
  | refused r => exact .inr ⟨r, rfl⟩
  | _ =>
      left
      intro r hr
      cases hr

/-- A program fails when it is started. -/
def Host.StartFails (h : Host) (args : List String) (limit : Option Number) (e : Fault) : Prop :=
  ∃ t, h.programs h.journal.invocations ⟨args, limit⟩ h.tree = (.error e, t)

/-- What else is written down has no part in how a program starts. -/
theorem Host.startFails_noted (h : Host) {event : Event} (hother : ∀ i status, event ≠ .started i status)
    {args : List String} {limit : Option Number} {e : Fault} :
    (h.noted event).StartFails args limit e ↔ h.StartFails args limit e := by
  have hsame : (h.noted event).journal.invocations = h.journal.invocations := by
    cases event <;> simp_all [Host.noted, Journal.invocations, Journal.programRuns]
  rw [StartFails, hsame]
  rfl

namespace Run

variable {α β : Type} {act : Run α} {h : Host} {e : Fault}

/-- The step fails, on a host on which it begins. -/
def FailsWith (act : Run α) (h : Host) (e : Fault) : Prop := ∃ h', act h = .error e h'

theorem FailsWith.of_error {h' : Host} (herror : act h = .error e h') : FailsWith act h e :=
  ⟨h', herror⟩

theorem not_failsWith_of_ok {h' : Host} {a : α} (hok : act h = .ok a h') : ¬ FailsWith act h e := by
  rintro ⟨h'', herror⟩
  rw [hok] at herror
  cases herror

theorem failsWith_pure_iff (a : α) : FailsWith (pure a : Run α) h e ↔ False :=
  iff_false_intro (not_failsWith_of_ok (pure_apply a h))

theorem failsWith_throw_iff {e' : Fault} : FailsWith (throw e' : Run α) h e ↔ e' = e := by
  constructor
  · rintro ⟨h', herror⟩
    cases herror
    rfl
  · rintro rfl
    exact ⟨h, rfl⟩

theorem not_failsWith_throw_of_uncaught (he : e.Uncaught) (r : Refusal) :
    ¬ FailsWith (throw (.refused r) : Run α) h e :=
  fun hfails => he r (failsWith_throw_iff.1 hfails).symm

theorem failsWith_bind_iff {next : α → Run β} :
    FailsWith (act >>= next) h e ↔
      FailsWith act h e ∨ ∃ a h', act h = .ok a h' ∧ FailsWith (next a) h' e := by
  cases hact : act h with
  | ok a h' =>
      rw [FailsWith, bind_apply_of_ok hact]
      constructor
      · intro hnext
        exact .inr ⟨a, h', rfl, hnext⟩
      · rintro (hfails | ⟨b, h'', hok, hnext⟩)
        · exact absurd hfails (not_failsWith_of_ok hact)
        · cases hok
          exact hnext
  | error e' h' =>
      rw [FailsWith, bind_apply_of_error hact]
      constructor
      · rintro ⟨h'', herror⟩
        cases herror
        exact .inl ⟨h', hact⟩
      · rintro (⟨h'', herror⟩ | ⟨b, h'', hok, -⟩)
        · cases hact.symm.trans herror
          exact ⟨h', rfl⟩
        · cases hok

theorem failsWith_note_bind_iff {event : Event} {next : Unit → Run β} :
    FailsWith (note event >>= next) h e ↔ FailsWith (next ()) (h.noted event) e := .rfl

theorem failsWith_get_bind_iff {next : Host → Run β} :
    FailsWith (get >>= next) h e ↔ FailsWith (next h) h e := .rfl

theorem catchRefusal_of_uncaught {h' : Host} (he : e.Uncaught) (hact : act h = .error e h') :
    catchRefusal act h = .error e h' := by
  rw [catchRefusal, hact]
  cases e with
  | refused r => exact absurd rfl (he r)
  | _ => rfl

/-! ## The primitives -/

theorem failsWith_command_iff {program : String} {args : List String} {limit : Option Number}
    (secrets : List String) :
    FailsWith (command (program :: args) limit secrets) h e ↔
      h.StartFails (program :: args) limit e := by
  rw [Host.StartFails]
  cases hended : h.programs h.journal.invocations ⟨program :: args, limit⟩ h.tree with
  | mk outcome t =>
      cases outcome with
      | ok out =>
          have hok := not_failsWith_of_ok (e := e) (command_of_ok secrets hended)
          simp [hok]
      | error e' =>
          have herror := command_of_error secrets hended
          constructor
          · rintro ⟨h', herror'⟩
            rw [herror] at herror'
            cases herror'
            exact ⟨t, rfl⟩
          · rintro ⟨t', hsame⟩
            cases hsame
            exact .of_error herror

/-! ## Accounts -/

theorem failsWith_exists?_iff {store : IdentityStore} {name : String} :
    FailsWith (store.exists? name) h e ↔
      ∃ executable limit, store = .netUser executable limit ∧
        h.StartFails [executable, "user", name] (some limit) e := by
  cases store with
  | table => exact iff_of_false (not_failsWith_of_ok rfl) (by simp)
  | posix => exact iff_of_false (not_failsWith_of_ok rfl) (by simp)
  | netUser executable limit =>
      have hasked : FailsWith ((IdentityStore.netUser executable limit).exists? name) h e ↔
          h.StartFails [executable, "user", name] (some limit) e := by
        rw [← failsWith_command_iff [], IdentityStore.exists?, failsWith_bind_iff]
        simp [failsWith_pure_iff]
      rw [hasked]
      constructor
      · intro hfails
        exact ⟨executable, limit, rfl, hfails⟩
      · rintro ⟨_, _, hsame, hfails⟩
        cases hsame
        exact hfails

/-- That an account is not there is a refusal, so nothing else is left but that its database could
not be asked. -/
theorem failsWith_requireExisting_iff {store : IdentityStore} {i : Identity} (he : e.Uncaught) :
    FailsWith (store.requireExisting i) h e ↔
      i.present = true ∧ FailsWith (store.exists? i.name) h e := by
  rw [IdentityStore.requireExisting]
  cases hpresent : i.present with
  | false =>
      exact iff_of_false (not_failsWith_throw_of_uncaught he _) (by simp)
  | true =>
      have hanswered : ∀ known h', ¬ FailsWith
          (if known = true then pure i else throw (IdentityStore.unknownAccount i.name) : Run Identity)
          h' e := by
        intro known h'
        cases known with
        | true => exact not_failsWith_of_ok (pure_apply i h')
        | false => exact not_failsWith_throw_of_uncaught he _
      simp only [Bool.not_true, Bool.false_eq_true, if_false, true_and]
      rw [failsWith_bind_iff]
      simp [hanswered]

end Run

end Provisioning
