/-
# `Provisioning.Capability` — what a platform can provision

A run works through one of two capabilities.

    windows    privileges of the runner account, rights on directories
    linux      the directories of an isolation group

Each answers the same three questions: is a request acceptable (`validate`,
which changes nothing), what would it change (`describe`, one line for each
change), and do it (`provision`, which fills in the report as it goes).
-/
import Provisioning.Cgroup.Provision
import Provisioning.Config
import Provisioning.Directory.Grant
import Provisioning.Privilege.Grant
import Provisioning.Report
import Provisioning.Request

namespace Provisioning

/-- Two names of the same account.  Account names do not distinguish the case of letters. -/
def sameAccount : Option String → Option String → Bool
  | some a, some b => Text.fold a == Text.fold b
  | _, _ => false

/-- The backends of a platform. -/
inductive Capability where
  | windows (identities : IdentityStore) (policy : SecurityPolicy) (access : AccessControl)
  | linux (identities : IdentityStore) (filesystem : CgroupFilesystem) (config : Config)
  deriving DecidableEq

/-- A host and the report of the run that changes it. -/
structure Progress where
  host : Host
  report : Report

/-- A step of a run that has begun. -/
abbrev Step := EStateM Fault Progress

namespace Step

/-- A step on the host alone. -/
def ofRun {α : Type} (act : Run α) : Step α := fun p =>
  match act p.host with
  | .ok a h => .ok a { p with host := h }
  | .error e h => .error e { p with host := h }

instance : MonadLift Run Step := ⟨ofRun⟩

/-- Write into the report. -/
def report (change : Report → Report) : Step Unit :=
  modify fun p => { p with report := change p.report }

end Step

namespace Capability

/-- The name of a platform. -/
def name : Capability → String
  | .windows .. => "windows"
  | .linux .. => "linux"

/-- The accounts of a platform. -/
def identities : Capability → IdentityStore
  | .windows identities _ _ => identities
  | .linux identities _ _ => identities

/-- The group that a request is about. -/
def groupOf (config : Config) (request : Request) : String :=
  (given request.cgroupGroup).getD config.cgroupGroup

/-- What provisions the groups of a platform. -/
def provisioner (identities : IdentityStore) (filesystem : CgroupFilesystem) (config : Config) :
    CgroupProvisioner :=
  { filesystem, root := config.cgroupRoot, identities := some identities }

/-- The refusal to grant directories to nobody. -/
def noTarget (request : Request) : Fault :=
  .refuse .missingTargetIdentity
    ("No target account for directory access to " ++ ", ".intercalate request.directories)
    [("paths", .texts request.directories)]

/-! ## Is the request acceptable? -/

/-- Check a request against what the platform can do, without a change.  A runner who is about to be
created cannot be looked up yet. -/
def validate : Capability → Request → Run Unit
  | .windows identities _ _, request =>
    match given request.runner with
    | none => return ()
    | some runner => do
      if sameAccount (some runner) request.createUser then return ()
      let _ ← identities.resolve (some runner)
      return ()
  | .linux identities _ _, request => do
    if !request.windowsOptions.isEmpty then
      Run.refuse .configurationError
        ("Not supported on Linux: " ++ ", ".intercalate request.windowsOptions)
        [("options", .texts request.windowsOptions)]
    let _ ← identities.resolve request.cgroupOwner
    return ()

/-! ## What would it change? -/

/-- The line that announces a new account. -/
def createLine (name : String) : String := "create local account '" ++ name ++ "'"

/-- The line that announces the runner's privileges. -/
def runnerLine (request : Request) : String :=
  "grant " ++ request.privileges.describe ++ " to " ++
    (given request.runner).getD "the current account"

/-- The line that announces rights on a directory. -/
def grantLine (rights : AccessRights) (path : String) : String :=
  "grant " ++ rights.toString ++ " on " ++ path

/-- The line that announces a directory of a group. -/
def groupLine (owner : String) (path : Path) : String :=
  "create " ++ path.toString ++ " owned by '" ++ owner ++ "'"

/-- The plan on windows. -/
def windowsPlan (request : Request) : List String :=
  ((given request.createUser).toList.map createLine) ++
    (if request.runnerRequested then [runnerLine request] else []) ++
    request.directories.map (grantLine request.rights)

/-- One line for each change that a request asks for. -/
def describe : Capability → Request → Run (List String)
  | .windows _ _ _, request => return windowsPlan request
  | .linux identities _ config, request => do
    let owner ←
      match given request.cgroupOwner with
      | some owner => pure owner
      | none => do
        let session ← identities.resolve none
        pure session.name
    let specs ← Run.ofExcept (CgroupSpec.forGroup (groupOf config request))
    return specs.map fun s => groupLine owner (s.path config.cgroupRoot)

/-! ## Do it -/

/-- The runner of a request: the target of the run if that is the account meant. -/
def runnerOf (identities : IdentityStore) (request : Request) (target : Option Identity) :
    Run Identity := do
  match given request.runner, target with
  | some name, some t =>
    if sameAccount (some name) (some t.name) then return t else identities.resolve request.runner
  | _, _ => identities.resolve request.runner

/-- Grant the runner its privileges. -/
def provisionRunner (identities : IdentityStore) (policy : SecurityPolicy) (request : Request)
    (target : Option Identity) : Step Unit := do
  let runner ← runnerOf identities request target
  Step.report fun r => { r with runner := some runner }
  let added ← policy.grant identities runner request.privileges
  Step.report fun r =>
    { r with privilegesGranted := added.toList, restartRequired := !added.isEmpty }

/-- Grant the target its directories. -/
def provisionDirectories (identities : IdentityStore) (access : AccessControl) (request : Request)
    (target : Option Identity) : Step Unit := do
  match target with
  | none => throw (noTarget request)
  | some target =>
    Step.ofRun (Run.log .debug .platform
      ("Granting " ++ request.rights.toString ++ " on " ++ toString request.directories.length ++
        " director" ++ (if request.directories.length = 1 then "y" else "ies") ++ " to '" ++
        target.name ++ "'"))
    let grants ← access.grantAll identities target request.directories request.rights
    Step.report fun r => { r with directoriesGranted := grants.map DirectoryGrant.path }

/-- Provision the isolation group. -/
def provisionGroup (identities : IdentityStore) (filesystem : CgroupFilesystem) (config : Config)
    (request : Request) : Step Unit := do
  let owner ← identities.resolve request.cgroupOwner
  Step.report fun r => { r with target := some owner }
  let group := groupOf config request
  let cgroups := provisioner identities filesystem config
  Step.ofRun (Run.log .info .platform
    ("Provisioning cgroup group '" ++ group ++ "' under " ++ cgroups.root.toString ++ " for '" ++
      owner.name ++ "'"))
  let paths ← cgroups.provision group owner.name
  Step.report fun r => { r with cgroups := paths.map Path.toString }
  if config.verifyCgroups then
    let wrong ← cgroups.verify group owner.name
    if wrong.isEmpty then return ()
    else
      throw (.refuse .permissionDenied
        ("cgroup directories not owned by '" ++ owner.name ++ "': " ++
          ", ".intercalate (wrong.map CgroupSubsystem.toString))
        [("group", .text group), ("subsystems", .texts (wrong.map CgroupSubsystem.toString))])

/-- Do what a request asks for, for the target of the run. -/
def provision : Capability → Request → Option Identity → Step Unit
  | .windows identities policy access, request, target => do
    if request.runnerRequested then provisionRunner identities policy request target
    if !request.directories.isEmpty then provisionDirectories identities access request target
  | .linux identities filesystem config, request, _ =>
    provisionGroup identities filesystem config request

/-! ## The capability of a host -/

/-- The capability that a host's own backends give. -/
def ofHost (config : Config) : Run Capability := do
  let h ← get
  if h.system = "win32" then
    return .windows (.netUser config.netExecutable config.commandTimeout) .lsa
      (.icacls config.icaclsExecutable config.commandTimeout)
  else if "linux".isPrefixOf h.system then
    let filesystem ← CgroupFilesystem.suited config.sudoExecutable config.commandTimeout
    return .linux .posix filesystem config
  else Run.refuse .configurationError ("Unsupported platform: " ++ h.system) []

end Capability

end Provisioning
