/-
# `Provisioning.Proofs.Account.Vouched` — an account that is there, in any database

An identity can be granted something if it was resolved and its account is
still there.  The databases are asked anew for every grant, so over several
grants the account has to be there each time:

    the table        the account is in it
    the program      it says so whenever it is asked, and touches no file
    the users        the user has a number

Then asking changes nothing but the journal.
-/
import Provisioning.Proofs.Account.Table
import Provisioning.Proofs.Host.Command

namespace Provisioning.IdentityStore

open Run

/-- The identity was resolved, and the database says of its account, whenever it is asked, that it
exists. -/
def Vouches (store : IdentityStore) (i : Identity) (h : Host) : Prop :=
  i.present = true ∧
    match store with
    | .table => h.accounts.has i.name = true
    | .netUser executable limit =>
      ∀ earlier, ∃ out, h.programs earlier ⟨[executable, "user", i.name], some limit⟩ h.tree =
        (.ok out, h.tree) ∧ out.succeeded = true
    | .posix => (h.passwd.lookup i.name).isSome = true

variable {store : IdentityStore} {i : Identity} {h : Host}

/-- Nothing that the databases answer from is an access list. -/
theorem Vouches.withAccess (hvouches : store.Vouches i h) (access : AccessTable) :
    store.Vouches i { h with access } := by
  cases store <;> exact hvouches

theorem gives_exists?_of_vouches (hvouches : store.Vouches i h) :
    Gives Host.aside (store.exists? i.name) h.aside true h.aside := by
  obtain ⟨-, hanswers⟩ := hvouches
  cases store with
  | table =>
      refine gives_of_look fun x hx => ?_
      have hhas : x.accounts.has i.name = true := by
        rw [Host.eq_of_aside hx Host.accounts]
        exact hanswers
      exact congrArg (EStateM.Result.ok · x) hhas
  | netUser executable limit =>
      intro x hx
      obtain ⟨out, hended, hsucceeded⟩ := hanswers x.journal.invocations
      rw [← Host.eq_of_aside hx Host.programs, ← Host.eq_of_aside hx Host.tree] at hended
      have hasked := bind_apply_of_ok (command_of_ok [] hended)
        fun out => (pure out.succeeded : Run Bool)
      rw [hsucceeded] at hasked
      exact ⟨_, hasked, hx⟩
  | posix =>
      refine gives_of_look fun x hx => ?_
      have hknown : (x.passwd.lookup i.name).isSome = true := by
        rw [Host.eq_of_aside hx Host.passwd]
        exact hanswers
      exact congrArg (EStateM.Result.ok · x) hknown

/-- An account that the database vouches for is let through, and nothing is changed. -/
theorem gives_requireExisting_of_vouches (hvouches : store.Vouches i h) :
    Gives Host.aside (store.requireExisting i) h.aside i h.aside :=
  Gives.ite_neg (by simp [hvouches.1]) ((gives_exists?_of_vouches hvouches).bind
    (Gives.ite_pos rfl (gives_pure i _)))

end Provisioning.IdentityStore
