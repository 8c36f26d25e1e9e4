/-
# `Provisioning.Privilege.Table` — account rights kept in memory

The rights of every account, found by the lower case of its name, and the
grants made so far.  A table may be set to refuse every grant.
-/
import Provisioning.Fault.Basic
import Provisioning.Privilege.Set
import Provisioning.Table

namespace Provisioning

/-- A table of account rights. -/
structure RightsTable where
  rights : Table String PrivilegeSet := {}
  /-- Why grants are refused, while they are. -/
  failure : Option Fault := none
  /-- The grants made, in order. -/
  grants : List (String × PrivilegeSet) := []

namespace RightsTable

/-- The privileges an account holds. -/
def heldBy (t : RightsTable) (name : String) : PrivilegeSet :=
  (t.rights.get? (Text.lower name)).getD {}

/-- The table with privileges added to an account. -/
def add (t : RightsTable) (name : String) (privileges : PrivilegeSet) : Except Fault RightsTable :=
  match t.failure with
  | some f => .error f
  | none =>
    .ok
      { t with
        rights := t.rights.put (Text.lower name) (t.heldBy name ∪ privileges)
        grants := t.grants ++ [(name, privileges)] }

/-- The table in which accounts hold the privileges listed for them. -/
def ofRows (rows : List (String × PrivilegeSet)) : RightsTable where
  rights :=
    rows.foldl
      (fun t (r : String × PrivilegeSet) =>
        t.put (Text.lower r.1) ((t.get? (Text.lower r.1)).getD {} ∪ r.2)) {}

theorem heldBy_add {t t' : RightsTable} {name : String} {ps : PrivilegeSet}
    (h : t.add name ps = .ok t') (other : String) :
    t'.heldBy other =
      if Text.lower other = Text.lower name then t.heldBy other ∪ ps else t.heldBy other := by
  unfold add at h
  split at h
  · exact nomatch h
  · injection h with h
    subst h
    by_cases hn : Text.lower name = Text.lower other
    · simp [heldBy, hn]
    · simp [heldBy, Table.get?_put_of_ne _ hn, Ne.symm hn]

/-- Nothing is added while grants are refused. -/
theorem failure_of_add {t t' : RightsTable} {name : String} {ps : PrivilegeSet}
    (h : t.add name ps = .ok t') : t.failure = none ∧ t'.failure = none := by
  unfold add at h
  split at h
  · exact nomatch h
  · rename_i hnone
    injection h with h
    subst h
    exact ⟨hnone, hnone⟩

end RightsTable

end Provisioning
