/-
# `Provisioning.Request` — what one run is asked to do

A request holds every option of a run and is not changed while the run goes
on.  A text option that is present but empty counts as not given; `given` is
that reading, and the steps say where they use it and where they only ask
whether the option is present.
-/
import Provisioning.Account.Credential
import Provisioning.Directory.Rights
import Provisioning.Privilege.Set
import Provisioning.Text.Given
import Provisioning.Text.Inspect

namespace Provisioning

/-- The options of one run. -/
structure Request where
  createUser : Option String := none
  password : Option Credential := none
  user : Option String := none
  runnerRequested : Bool := false
  runner : Option String := none
  privileges : PrivilegeSet := .runner
  directories : List String := []
  rights : AccessRights := .readWriteCreate
  /-- Grant directories to the operator's own account when no other is named. -/
  useSessionIdentity : Bool := false
  cgroupGroup : Option String := none
  cgroupOwner : Option String := none
  deriving DecidableEq

namespace Request

/-- A password is there and not empty. -/
def hasPassword (r : Request) : Bool := r.password.any Credential.isGiven

/-- The options that only the account, privilege and directory steps know, by name. -/
def windowsOptions (r : Request) : List String :=
  [("create-user", (given r.createUser).isSome), ("password", r.hasPassword),
    ("user", (given r.user).isSome), ("runner", r.runnerRequested || (given r.runner).isSome),
    ("dir", !r.directories.isEmpty)].filterMap fun o => if o.2 then some o.1 else none

/-- A set of privileges, shown as a value. -/
def inspectPrivileges (s : PrivilegeSet) : String :=
  match s.toList with
  | [] => "frozenset()"
  | ps => "frozenset(\x7b" ++ ", ".intercalate (ps.map Privilege.inspect) ++ "\x7d)"

/-- A request, shown as a value.  The password is left out. -/
def inspect (r : Request) : String :=
  Text.inspectRecord "ProvisioningRequest"
    [("create_user", Text.inspectOption Text.quoted r.createUser),
      ("user", Text.inspectOption Text.quoted r.user),
      ("runner_requested", Text.inspectBool r.runnerRequested),
      ("runner", Text.inspectOption Text.quoted r.runner),
      ("privileges", inspectPrivileges r.privileges),
      ("directories", Text.quotedList r.directories),
      ("rights", r.rights.inspect),
      ("use_session_identity", Text.inspectBool r.useSessionIdentity),
      ("cgroup_group", Text.inspectOption Text.quoted r.cgroupGroup),
      ("cgroup_owner", Text.inspectOption Text.quoted r.cgroupOwner)]

end Request

end Provisioning
