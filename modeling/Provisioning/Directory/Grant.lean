/-
# `Provisioning.Directory.Grant` — granting directories

`grant` gives an identity exactly the requested rights on one directory; an
entry that is already right is not written again.  `grantAll` attempts every
directory of a list on its own: a directory that is refused does not keep the
later ones from being granted, and the refusals are reported together at the
end.
-/
import Provisioning.Account.Resolver
import Provisioning.Directory.Access
import Provisioning.Directory.Entry

namespace Provisioning

namespace AccessControl

/-- Give an identity exactly the given rights on a directory. -/
def grant (access : AccessControl) (store : IdentityStore) (identity : Identity) (path : String)
    (rights : AccessRights) : Run DirectoryGrant := do
  let _ ← store.requireExisting identity
  if !(← Run.pathExists (Path.ofString path)) then
    Run.refuse .pathNotFound ("Path does not exist: " ++ path) [("path", .text path)]
  else
    let entries ← access.entries path
    if entries.get? identity.name = some rights then
      Run.log .info .directories
        ("'" ++ identity.name ++ "' already has " ++ rights.toString ++ " on " ++ path)
      return { identity, path, rights }
    else
      Run.log .info .directories
        ("Granting " ++ rights.toString ++ " on " ++ path ++ " to '" ++ identity.name ++ "'")
      access.setEntry path identity.name rights
      return { identity, path, rights }

/-- What became of the directories of a list. -/
structure GrantResults where
  granted : List DirectoryGrant := []
  failures : List Refusal := []

/-- Attempt every directory of a list. -/
def attemptAll (access : AccessControl) (store : IdentityStore) (identity : Identity)
    (rights : AccessRights) : List String → Run GrantResults
  | [] => return {}
  | path :: rest => do
    match ← Run.catchRefusal (access.grant store identity path rights) with
    | .ok g =>
      let results ← attemptAll access store identity rights rest
      return { results with granted := g :: results.granted }
    | .error r =>
      Run.log .error .directories ("Directory grant failed for " ++ path ++ ": " ++ r.message)
      let results ← attemptAll access store identity rights rest
      return { results with failures := r :: results.failures }

/-- Grant every directory of a list, or report all the refusals as one. -/
def grantAll (access : AccessControl) (store : IdentityStore) (identity : Identity)
    (paths : List String) (rights : AccessRights) : Run (List DirectoryGrant) := do
  let _ ← store.requireExisting identity
  let results ← access.attemptAll store identity rights paths
  if results.failures.isEmpty then return results.granted
  else throw (.refused (Refusal.ofFailures none results.failures))

end AccessControl

end Provisioning
