/-
# `Provisioning.Proofs.Host.Stores` — what a run may change

The stores of a host are the accounts, the account rights, the access lists,
the isolation groups, the rights that the security service knows, and the file
tree: everything that a change can be made to.  The journal is none of them.
-/
import Provisioning.Host.Intervention
import Provisioning.Proofs.Host.Lookup

namespace Provisioning

/-- The stores of a host. -/
structure Stores where
  accounts : AccountTable
  rights : RightsTable
  access : AccessTable
  cgroups : CgroupTable
  lsaAccounts : LsaAccounts
  tree : Tree

namespace Host

def stores (h : Host) : Stores where
  accounts := h.accounts
  rights := h.rights
  access := h.access
  cgroups := h.cgroups
  lsaAccounts := h.lsaAccounts
  tree := h.tree

theorem Looked.stores_eq {store : IdentityStore} {h h' : Host} (hl : h.Looked store h')
    (hlooks : store.LooksOnly h) : h'.stores = h.stores := by
  obtain ⟨es, t, rfl, -, -, ht⟩ := hl
  simp [stores, ht hlooks]

/-- A store that only looks still does after it was looked at. -/
theorem Looked.looksOnly {store : IdentityStore} {h h' : Host} (hl : h.Looked store h')
    (hlooks : store.LooksOnly h) : store.LooksOnly h' := by
  obtain ⟨es, t, rfl, -, -, -⟩ := hl
  cases store <;> exact hlooks

end Host

namespace Orchestrator

/-- Whoever is asked leaves the stores alone. -/
def AskKeepsStores (o : Orchestrator) : Prop :=
  ∀ ask, o.confirmation = some ask → ∀ q h, ((ask q).hostAfter h).stores = h.stores

/-- Whoever is asked neither asks in turn nor asks for a change. -/
def AskOnlyAnswers (o : Orchestrator) : Prop :=
  ∀ ask, o.confirmation = some ask → ∀ q, Run.Leads (Host.Grows fun _ => False) (ask q)

end Orchestrator

/-! ## Someone who always gives the same answer -/

/-- What no intervention changes, several do not change. -/
theorem Host.view_interveneAll {τ : Type} (view : Host → τ)
    (hview : ∀ h i, view (Host.intervene h i) = view h) (h : Host) (is : List Intervention) :
    view (h.interveneAll is) = view h := by
  unfold interveneAll
  induction is generalizing h with
  | nil => rfl
  | cons i is ih => rw [List.foldl_cons, ih, hview]

theorem Host.journal_interveneAll (h : Host) (is : List Intervention) :
    (h.interveneAll is).journal = h.journal := Host.view_interveneAll journal journal_intervene h is

theorem grows_fixedAnswer {C : Change → Prop} (answer : Bool) (is : List Intervention)
    (q : String) : Run.Leads (Host.Grows C) (fixedAnswer answer is q) :=
  Run.Leads.bind (fun h => .of_journal_eq (h.journal_interveneAll is)) fun _ => Run.leads_pure _

theorem stores_fixedAnswer (answer : Bool) (q : String) (h : Host) :
    ((fixedAnswer answer [] q).hostAfter h).stores = h.stores := rfl

end Provisioning
