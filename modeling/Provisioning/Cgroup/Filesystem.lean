/-
# `Provisioning.Cgroup.Filesystem` — making and owning group directories

Three ways to touch a cgroup hierarchy: the table kept in memory, direct calls
of the file tree, and an elevating program that makes the calls for the
operator.  The elevating program is asked once to prove who the operator is
(`validateElevation`), and nothing is elevated before it has.

    missing controller     configuration error
    lack of rights         permission denied
-/
import Provisioning.Account.Resolver
import Provisioning.Host.Command

namespace Provisioning

/-- A way to touch a cgroup hierarchy. -/
inductive CgroupFilesystem where
  /-- The table kept in memory. -/
  | table
  /-- Calls of the file tree. -/
  | direct
  /-- An elevating program, and how many seconds a call through it may take. -/
  | viaSudo (executable : String) (limit : Number)
  deriving DecidableEq

namespace CgroupFilesystem

/-- The refusal of a directory whose controller is not mounted. -/
def notMounted (path : Path) : Fault :=
  .refuse .configurationError ("cgroup controller is not mounted: " ++ path.parent.toString)
    [("path", .text path.toString)]

/-- The number of a user who must exist. -/
def requireUser (owner : String) : Run Int := do
  match ← Run.uidOf? owner with
  | some uid => return uid
  | none => throw (IdentityStore.unknownAccount owner)

/-! ## The table -/

/-- Make a directory in the table; tells whether it is new. -/
def tableEnsureDirectory (path : Path) : Run Bool := do
  let h ← get
  if h.cgroups.interrupts then throw .interrupted
  modify fun h => { h with cgroups := h.cgroups.noted (.makeDirectory path) }
  if !h.cgroups.elevated then throw (CgroupTable.denial path)
  let isNew := !h.cgroups.owners.contains path
  modify fun h => { h with cgroups := h.cgroups.withDirectory path }
  return isNew

/-- Give a path of the table and all below it to an owner. -/
def tableChangeOwner (path : Path) (owner : String) : Run Unit := do
  let h ← get
  modify fun h => { h with cgroups := h.cgroups.noted (.changeOwner path) }
  if !h.cgroups.elevated then throw (CgroupTable.denial path)
  modify fun h => { h with cgroups := h.cgroups.ownedWithin path owner }

/-! ## Direct calls -/

/-- Make a directory by a direct call; tells whether it is new. -/
def directEnsureDirectory (path : Path) : Run Bool := do
  if ← Run.isDirectory path then return false
  fun h =>
    match Run.mkdir path h with
    | .ok _ h' => .ok true h'
    | .error (.system e) h' =>
      if e.number? = some SystemError.alreadyExists then .ok false h'
      else if e.number? = some SystemError.noEntry then .error (notMounted path) h'
      else if e.isRefused then
        .error
          (.refuseFrom (.system e) .permissionDenied ("Permission denied creating " ++ path.toString)
            [("path", .text path.toString)]) h'
      else .error (.system e) h'
    | .error e h' => .error e h'

/-- Give the entries of a walk from `start` to a user, one after the other. -/
def chownEach (start : Path) (uid : Int) : List Path → Run Unit
  | [] => return ()
  | p :: ps => do
    Run.chown start p uid
    chownEach start uid ps

/-- Give a path and everything below it to an owner, by direct calls. -/
def directChangeOwner (path : Path) (owner : String) : Run Unit := do
  let uid ← requireUser owner
  Run.mapFault
    (fun
      | .system e =>
        if e.isRefused then
          some (.refuseFrom (.system e) .permissionDenied
            ("Permission denied changing the owner of " ++ path.toString)
            [("path", .text path.toString), ("owner", .text owner)])
        else none
      | _ => none)
    (do
      Run.chown path path uid
      let h ← get
      chownEach path uid (h.tree.walk path))

/-! ## Through the elevating program -/

/-- Have the operator prove who they are, unless they have.  The program talks to the operator itself,
so it may take any time. -/
def validateElevation (executable : String) : Run Unit := do
  let h ← get
  if h.elevationValidated then return ()
  let out ← Run.mapFault
    (fun
      | .system e =>
        some (.refuseFrom (.system e) .permissionDenied
          ("Could not run " ++ executable ++ ": " ++ e.toString) [])
      | _ => none)
    (Run.startProgram [executable, "-v"] none)
  if out.succeeded then modify fun h => { h with elevationValidated := true }
  else
    Run.refuse .permissionDenied
      (executable ++ " -v failed; elevation is required to manage cgroups")
      [("exit_code", .int out.status)]

/-- Run a call through the elevating program. -/
def runElevated (executable : String) (limit : Number) (call : String) (args : List String)
    (path : Path) : Run Unit := do
  validateElevation executable
  let out ← Run.mapFault
    (fun
      | .system e => some (couldNotRun (.system e))
      | .timedOut args limit => some (couldNotRun (.overran args limit))
      | _ => none)
    (Run.command (executable :: "-n" :: call :: args) (some limit) [])
  if out.succeeded then return ()
  else
    Run.refuse .permissionDenied
      (executable ++ " " ++ call ++ " failed on " ++ path.toString ++ ": " ++
        Text.trim out.complaint)
      [("path", .text path.toString), ("exit_code", .int out.status)]
where
  couldNotRun (cause : Cause) : Fault :=
    .refuseFrom cause .permissionDenied
      ("Could not run " ++ executable ++ " " ++ call ++ ": " ++ cause.message)
      [("path", .text path.toString)]

/-- Make a directory through the elevating program; tells whether it is new. -/
def sudoEnsureDirectory (executable : String) (limit : Number) (path : Path) : Run Bool := do
  if ← Run.isDirectory path then return false
  if ← Run.isDirectory path.parent then
    runElevated executable limit "mkdir" [path.toString] path
    return true
  else throw (notMounted path)

/-- Give a path and everything below it to an owner, through the elevating program. -/
def sudoChangeOwner (executable : String) (limit : Number) (path : Path) (owner : String) :
    Run Unit := do
  let _ ← requireUser owner
  runElevated executable limit "chown" ["-R", owner, path.toString] path

/-! ## Any of the three -/

/-- Make a directory if it is not there; tells whether this call made it. -/
def ensureDirectory (fs : CgroupFilesystem) (path : Path) : Run Bool := do
  Run.note (.requested (.ensureDirectory path))
  match fs with
  | .table => tableEnsureDirectory path
  | .direct => directEnsureDirectory path
  | .viaSudo executable limit => sudoEnsureDirectory executable limit path

/-- Give a path and everything below it to an owner. -/
def changeOwner (fs : CgroupFilesystem) (path : Path) (owner : String) : Run Unit := do
  Run.note (.requested (.changeOwner path owner))
  match fs with
  | .table => tableChangeOwner path owner
  | .direct => directChangeOwner path owner
  | .viaSudo executable limit => sudoChangeOwner executable limit path owner

/-- The owner of a path of the file tree: the name of the first user with its number, or the number. -/
def treeOwnerOf (path : Path) : Run (Option String) := do
  match ← Run.entryAt path with
  | none => return none
  | some n =>
    let user ← Run.userOf? n.uid
    return some (user.getD (toString n.uid))

/-- The owner of a path, if there is anything at it. -/
def ownerOf : CgroupFilesystem → Path → Run (Option String)
  | .table, path => do
    let h ← get
    return h.cgroups.owners.get? path
  | .direct, path => treeOwnerOf path
  | .viaSudo _ _, path => treeOwnerOf path

/-- The way that suits the rights of the process: direct calls for root, the elevating program for
anyone else who has it. -/
def suited (executable : String) (limit : Number) : Run CgroupFilesystem := do
  let h ← get
  if h.euid = 0 then return .direct
  else if h.executables.contains executable then return .viaSudo executable limit
  else
    Run.log .warning .filesystem (executable ++ " not found; trying direct filesystem calls")
    return .direct

end CgroupFilesystem

end Provisioning
