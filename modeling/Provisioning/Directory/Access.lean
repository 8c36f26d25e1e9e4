/-
# `Provisioning.Directory.Access` — the access lists of a host

Access lists are edited in the table kept in memory or with the access list
editor.  Setting an entry replaces the account's explicit entry on the path,
so its rights are exactly the ones last set, and leaves every other entry
alone.
-/
import Provisioning.Directory.Listing
import Provisioning.Host.Command

namespace Provisioning

/-- The access lists of a host. -/
inductive AccessControl where
  /-- The table kept in memory. -/
  | table
  /-- The access list editor, and how many seconds it may run. -/
  | icacls (executable : String) (limit : Number)
  deriving DecidableEq

namespace AccessControl

/-- Run the access list editor on a path; that it fails is a refusal. -/
def runEditor (executable : String) (limit : Number) (args : List String) (path : String) :
    Run ProgramOutput := do
  let out ← Run.mapFault
    (fun
      | .system e => some (couldNotRun (.system e))
      | .timedOut args limit => some (couldNotRun (.overran args limit))
      | _ => none)
    (Run.command args (some limit) [])
  if out.succeeded then return out
  else
    Run.refuse .permissionDenied
      (executable ++ " failed on " ++ path ++ ": " ++ Text.trim out.complaint)
      [("path", .text path), ("exit_code", .int out.status)]
where
  couldNotRun (cause : Cause) : Fault :=
    .refuseFrom cause .permissionDenied
      ("Could not run " ++ executable ++ " on " ++ path ++ ": " ++ cause.message)
      [("path", .text path)]

/-- The explicit entries on a path that this library manages. -/
def entries : AccessControl → String → Run AccessList
  | .table, path => do
    let h ← get
    return h.access.entries path
  | .icacls executable limit, path => do
    let out ← runEditor executable limit [executable, path] path
    return readListing path out.stdout

/-- Make the explicit entry of an account on a path exactly the given rights. -/
def setEntry (access : AccessControl) (path name : String) (rights : AccessRights) : Run Unit := do
  Run.note (.requested (.setEntry path name rights))
  match access with
  | .table =>
    let h ← get
    let access ← Run.ofExcept (h.access.setEntry path name rights)
    modify fun h => { h with access }
  | .icacls executable limit =>
    let _ ← runEditor executable limit
      [executable, path, "/grant:r", name ++ ":" ++ rights.mask, "/C"] path
    return ()

end AccessControl

end Provisioning
