/-
# `Provisioning.Cgroup.Provision` — provisioning an isolation group

Every controller gets a directory for the group, and the directory belongs to
the owner of the sandbox.  Existing directories count as made, and ownership
is set on every run, so a run that failed halfway is mended by the next.
`verify` looks afterwards which directories are not as they should be.
-/
import Provisioning.Cgroup.Filesystem
import Provisioning.Cgroup.Group

namespace Provisioning

/-- Where and how groups are provisioned; owners are checked against the accounts when there are any
to check against. -/
structure CgroupProvisioner where
  filesystem : CgroupFilesystem
  root : Path := Path.ofString "/sys/fs/cgroup"
  identities : Option IdentityStore := none

namespace CgroupProvisioner

/-- Make one directory of a group and give it to its owner. -/
def provisionOne (p : CgroupProvisioner) (owner : String) (path : Path) : Run Unit := do
  if ← p.filesystem.ensureDirectory path then
    Run.log .info .cgroups ("Created " ++ path.toString)
  else Run.log .info .cgroups (path.toString ++ " already exists")
  p.filesystem.changeOwner path owner
  Run.log .debug .cgroups ("Owner of " ++ path.toString ++ " set to '" ++ owner ++ "'")

/-- Provision the directories of a list, in order. -/
def provisionEach (p : CgroupProvisioner) (owner : String) : List Path → Run Unit
  | [] => return ()
  | path :: rest => do
    p.provisionOne owner path
    provisionEach p owner rest

/-- The owner is an account that may own directories. -/
def ownerIsKnown (p : CgroupProvisioner) (owner : String) : Run Bool := do
  if owner = "" then return false
  match p.identities with
  | none => return true
  | some store => store.exists? owner

/-- Provision a group for an owner, giving its directories. -/
def provision (p : CgroupProvisioner) (group owner : String) : Run (List Path) := do
  if !(← p.ownerIsKnown owner) then throw (IdentityStore.unknownAccount owner)
  let specs ← Run.ofExcept (CgroupSpec.forGroup group)
  let paths := specs.map fun s => s.path p.root
  p.provisionEach owner paths
  return paths

/-- The directories of a list that do not belong to an owner. -/
def notOwned (p : CgroupProvisioner) (owner : String) : List CgroupSpec → Run (List CgroupSubsystem)
  | [] => return []
  | s :: rest => do
    let found ← p.filesystem.ownerOf (s.path p.root)
    let others ← notOwned p owner rest
    return if found = some owner then others else s.subsystem :: others

/-- The controllers in which the directory of a group is missing or belongs to another. -/
def verify (p : CgroupProvisioner) (group owner : String) : Run (List CgroupSubsystem) := do
  let specs ← Run.ofExcept (CgroupSpec.forGroup group)
  p.notOwned owner specs

end CgroupProvisioner

end Provisioning
