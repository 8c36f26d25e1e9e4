/-
# `Provisioning.Schema.Records` — the records that are made from fields

How each record of the library is made from named fields: which are required,
which have defaults, and how each is read.  Unknown fields are ignored.  The
request is read the lax way and every other record strictly.

Made records come in two sorts.  An identity, a grant, a group directory and a
request are frozen: no field of theirs may be set again, known or not.  A
report and a configuration are open: any known field takes any value,
unchecked.  `Provisioning.Schema.Summary` says what a report with such values
still says of itself.
-/
import Provisioning.Config
import Provisioning.Directory.Entry
import Provisioning.Report
import Provisioning.Request
import Provisioning.Schema.Reading

namespace Provisioning.Schema

/-! ## Making records -/

/-- An identity. -/
def readIdentity (f : Fields) : Reading Identity :=
  (fun (n : { s : String // s ≠ "" }) present source credential =>
    { name := n.1, present, source, credential, named := n.2 }) <$>
    required f "name" aName <*>
    withDefault f "exists" false aBool <*>
    withDefault f "source" .explicit aSource <*>
    withDefault f "credential" none (optional aCredential)

/-- An identity, or the fields of one. -/
def anIdentity : Reader Identity
  | .identity i => .good i
  | .dict f => readIdentity f
  | _ => wrong (.modelType "Identity")

/-- A directory grant. -/
def readDirectoryGrant (f : Fields) : Reading DirectoryGrant :=
  DirectoryGrant.mk <$>
    required f "identity" anIdentity <*>
    required f "path" aText <*>
    withDefault f "rights" .readWriteCreate someRights

/-- A directory of a group. -/
def readCgroupSpec (f : Fields) : Reading CgroupSpec :=
  (fun (n : { s : String // s ≠ "" }) subsystem =>
    { group := n.1, subsystem, named := n.2 }) <$>
    required f "group" aName <*>
    required f "subsystem" aSubsystem

/-- A request. -/
def readRequest (f : Fields) : Reading Request :=
  Request.mk <$>
    withDefault f "create_user" none (optional aText) <*>
    withDefault f "password" none (optional aLaxCredential) <*>
    withDefault f "user" none (optional aText) <*>
    withDefault f "runner_requested" false aLaxBool <*>
    withDefault f "runner" none (optional aText) <*>
    withDefault f "privileges" .runner somePrivileges <*>
    withDefault f "directories" [] (aLaxList aText) <*>
    withDefault f "rights" .readWriteCreate someLaxRights <*>
    withDefault f "use_session_identity" false aLaxBool <*>
    withDefault f "cgroup_group" none (optional aText) <*>
    withDefault f "cgroup_owner" none (optional aText)

/-- A report. -/
def readReport (f : Fields) : Reading Report :=
  Report.mk <$>
    required f "platform" aText <*>
    withDefault f "target" none (optional anIdentity) <*>
    withDefault f "runner" none (optional anIdentity) <*>
    withDefault f "created" false aBool <*>
    withDefault f "privileges_granted" [] (aList aPrivilege) <*>
    withDefault f "directories_granted" [] (aList aText) <*>
    withDefault f "cgroups" [] (aList aText) <*>
    withDefault f "restart_required" false aBool

/-- A configuration. -/
def readConfig (f : Fields) : Reading Config :=
  let stock : Config := {}
  (fun root (group : { s : String // s ≠ "" }) yes verify elevation net icacls (seconds : Int) =>
    { cgroupRoot := root, cgroupGroup := group.1, assumeYes := yes, verifyCgroups := verify,
      sudoExecutable := elevation, netExecutable := net, icaclsExecutable := icacls,
      commandTimeout := seconds.toNat }) <$>
    withDefault f "cgroup_root" stock.cgroupRoot aPath <*>
    withDefault f "cgroup_group" ⟨"sp", by decide⟩ aName <*>
    withDefault f "assume_yes" stock.assumeYes aBool <*>
    withDefault f "verify_cgroups" stock.verifyCgroups aBool <*>
    withDefault f "sudo_executable" stock.sudoExecutable aText <*>
    withDefault f "net_executable" stock.netExecutable aText <*>
    withDefault f "icacls_executable" stock.icaclsExecutable aText <*>
    withDefault f "command_timeout" (stock.commandTimeout : Int) (anInt 1 Config.longestTimeout)

/-- An identity from its fields. -/
def identity? (f : Fields) : Except Fault Identity := (readIdentity f).toExcept "Identity"

/-- A grant from its fields. -/
def directoryGrant? (f : Fields) : Except Fault DirectoryGrant :=
  (readDirectoryGrant f).toExcept "DirectoryGrant"

/-- A group directory from its fields. -/
def cgroupSpec? (f : Fields) : Except Fault CgroupSpec := (readCgroupSpec f).toExcept "CgroupSpec"

/-- A request from its fields. -/
def request? (f : Fields) : Except Fault Request := (readRequest f).toExcept "ProvisioningRequest"

/-- A report from its fields. -/
def report? (f : Fields) : Except Fault Report := (readReport f).toExcept "ProvisioningReport"

/-- A configuration from its fields. -/
def config? (f : Fields) : Except Fault Config := (readConfig f).toExcept "ProvisionerConfig"

/-! ## The fields of a record -/

/-- The fields of a grant. -/
def directoryGrantFields (g : DirectoryGrant) : Fields :=
  [("identity", .identity g.identity), ("path", .text g.path), ("rights", .rights g.rights)]

/-- The fields of a group directory. -/
def cgroupSpecFields (s : CgroupSpec) : Fields :=
  [("group", .text s.group), ("subsystem", .subsystem s.subsystem)]

/-- The fields of a request. -/
def requestFields (r : Request) : Fields :=
  [("create_user", .ofOption .text r.createUser), ("password", .ofOption .credential r.password),
    ("user", .ofOption .text r.user), ("runner_requested", .bool r.runnerRequested),
    ("runner", .ofOption .text r.runner), ("privileges", .set (r.privileges.toList.map .privilege)),
    ("directories", .list (r.directories.map .text)), ("rights", .rights r.rights),
    ("use_session_identity", .bool r.useSessionIdentity),
    ("cgroup_group", .ofOption .text r.cgroupGroup), ("cgroup_owner", .ofOption .text r.cgroupOwner)]

/-- The fields of a report. -/
def reportFields (r : Report) : Fields :=
  [("platform", .text r.platform), ("target", .ofOption .identity r.target),
    ("runner", .ofOption .identity r.runner), ("created", .bool r.created),
    ("privileges_granted", .list (r.privilegesGranted.map .privilege)),
    ("directories_granted", .list (r.directoriesGranted.map .text)),
    ("cgroups", .list (r.cgroups.map .text)), ("restart_required", .bool r.restartRequired)]

/-- The fields of a configuration. -/
def configFields (c : Config) : Fields :=
  [("cgroup_root", .path c.cgroupRoot), ("cgroup_group", .text c.cgroupGroup),
    ("assume_yes", .bool c.assumeYes), ("verify_cgroups", .bool c.verifyCgroups),
    ("sudo_executable", .text c.sudoExecutable), ("net_executable", .text c.netExecutable),
    ("icacls_executable", .text c.icaclsExecutable), ("command_timeout", .int c.commandTimeout)]

/-! ## Setting a field of a made record -/

/-- The failure to set a field of a frozen record. -/
def frozenField (model name : String) : Fault := .invalid model [.inField name .frozen]

/-- The fields of a record after one was set, without a check of its value.  A name that starts with
an underscore names no field: what is set under it is kept apart and leaves the fields as they are,
also those of a frozen record. -/
def setField (model : String) (isFrozen : Bool) (fields : Fields) (name : String) (value : Datum) :
    Except Fault Fields :=
  if name.toList.head? = some '_' then .ok fields
  else if isFrozen then .error (frozenField model name)
  else if (fieldOf? name fields).isSome then
    .ok (fields.map fun f => if f.1 = name then (name, value) else f)
  else .error (.badValue ("\"" ++ model ++ "\" object has no field \"" ++ name ++ "\""))

end Provisioning.Schema
