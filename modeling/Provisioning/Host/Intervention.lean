/-
# `Provisioning.Host.Intervention` — changes that come from elsewhere

While a run waits, for instance for the operator's answer, others may change
the host: files come and go, accounts are added and removed, access lists are
edited by hand, and operations begin or cease to be refused.  An intervention
writes nothing into the journal, since no step of the run made it.
-/
import Provisioning.Host.Basic

namespace Provisioning

/-- A change of a host that no step made. -/
inductive Intervention where
  | addPath (path : Path) (node : Node)
  | removePath (path : Path)
  | addUser (name : String)
  | removeUser (name : String)
  /-- Edits of a path's access list are denied from now on. -/
  | deny (path : String)
  | allow (path : String)
  /-- Someone else edits an access list. -/
  | foreignEntry (path name : String) (rights : AccessRights)
  /-- Grants of privileges fail from now on, or no longer. -/
  | failPolicy (failure : Option Fault)
  /-- The operator of the cgroup hierarchy has elevation from now on, or no longer. -/
  | elevate (elevated : Bool)

namespace Host

/-- The host after an intervention. -/
def intervene (h : Host) : Intervention → Host
  | .addPath p n => { h with tree := h.tree.put p n }
  | .removePath p => { h with tree := h.tree.erase p }
  | .addUser name => { h with accounts.users := h.accounts.users.put name none }
  | .removeUser name => { h with accounts.users := h.accounts.users.erase name }
  | .deny path => { h with access.denied := path :: h.access.denied }
  | .allow path => { h with access.denied := h.access.denied.filter (· ≠ path) }
  | .foreignEntry path name rights => { h with access := h.access.withEntry path name rights }
  | .failPolicy failure => { h with rights.failure := failure }
  | .elevate elevated => { h with cgroups.elevated := elevated }

/-- The host after several interventions. -/
def interveneAll (h : Host) (is : List Intervention) : Host := is.foldl intervene h

theorem journal_intervene (h : Host) (i : Intervention) : (h.intervene i).journal = h.journal := by
  cases i <;> rfl

end Host

/-- Someone who always gives the same answer, after some interventions. -/
def fixedAnswer (answer : Bool) (interventions : List Intervention) : Confirmation := fun _ => do
  modify fun h => h.interveneAll interventions
  return answer

end Provisioning
