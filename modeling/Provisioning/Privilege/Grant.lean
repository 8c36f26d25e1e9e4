/-
# `Provisioning.Privilege.Grant` — granting privileges

A grant adds to an account the privileges it does not hold yet and gives back
exactly those: granting twice is granting once, and a non-empty result means
that the account needs a fresh logon.  What the operating system objects to is
reported as a refused grant.
-/
import Provisioning.Account.Resolver
import Provisioning.Privilege.Policy

namespace Provisioning

namespace SecurityPolicy

/-- The refusal of a grant to which the operating system objects. -/
def grantFailure (name : String) (e : SystemError) : Fault :=
  .refuseFrom (.system e) .privilegeGrantFailure
    ("Failed to grant privileges to '" ++ name ++ "': " ++ e.toString) [("name", .text name)]

/-- Add the privileges that an account lacks, giving those. -/
def addMissing (policy : SecurityPolicy) (name : String) (privileges : PrivilegeSet) :
    Run PrivilegeSet := do
  let held ← policy.accountRights name
  let missing := privileges \ held
  if missing.isEmpty then
    Run.log .info .privileges ("'" ++ name ++ "' already holds " ++ privileges.describe)
    return {}
  else
    Run.log .info .privileges ("Granting " ++ missing.describe ++ " to '" ++ name ++ "'")
    policy.addAccountRights name missing
    return missing

/-- Grant privileges to an existing identity, giving those that were added. -/
def grant (policy : SecurityPolicy) (store : IdentityStore) (identity : Identity)
    (privileges : PrivilegeSet) : Run PrivilegeSet := do
  let _ ← store.requireExisting identity
  Run.mapFault
    (fun | .system e => some (grantFailure identity.name e) | _ => none)
    (policy.addMissing identity.name privileges)

end SecurityPolicy

end Provisioning
