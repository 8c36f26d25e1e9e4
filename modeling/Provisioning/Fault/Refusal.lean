/-
# `Provisioning.Fault.Refusal` — refusals with stable codes

A refusal is a failure that a provisioning run reports to the operator.  Its
kind fixes its code, its family, and what is said and advised when nothing
more particular is known.

    family         codes     when
    validation     SP-E1xx   before any change of the host
    mutation       SP-E2xx   a change of the host was attempted and failed

Each family, and refusals as a whole, also have a kind of their own without a
usual wording.
-/
import Provisioning.Detail
import Provisioning.Fault.Cause

namespace Provisioning

/-- What kind of refusal. -/
inductive RefusalKind where
  /-- Any refusal. -/
  | provisioning
  /-- Any refusal before a change. -/
  | validation
  /-- Any failed change. -/
  | mutation
  /-- The named account does not exist. -/
  | unknownIdentity
  /-- An account is to be created without a password. -/
  | missingCredential
  /-- Directories are to be granted to nobody. -/
  | missingTargetIdentity
  /-- The directory to grant does not exist. -/
  | pathNotFound
  /-- The options do not go together. -/
  | configurationError
  /-- The operator declined. -/
  | operationCancelled
  /-- The step needs elevation. -/
  | permissionDenied
  /-- The security policy rejected a grant. -/
  | privilegeGrantFailure
  /-- The account could not be created. -/
  | identityCreationFailure
  /-- Some directories could not be granted. -/
  | directoryGrantFailures
  deriving DecidableEq, Repr

namespace RefusalKind

/-- Every kind. -/
def all : List RefusalKind :=
  [.provisioning, .validation, .mutation, .unknownIdentity, .missingCredential,
    .missingTargetIdentity, .pathNotFound, .configurationError, .operationCancelled,
    .permissionDenied, .privilegeGrantFailure, .identityCreationFailure, .directoryGrantFailures]

/-- The name of a kind. -/
def name : RefusalKind → String
  | .provisioning => "ProvisioningError"
  | .validation => "ValidationError"
  | .mutation => "MutationError"
  | .unknownIdentity => "UnknownIdentity"
  | .missingCredential => "MissingCredential"
  | .missingTargetIdentity => "MissingTargetIdentity"
  | .pathNotFound => "PathNotFound"
  | .configurationError => "ConfigurationError"
  | .operationCancelled => "OperationCancelled"
  | .permissionDenied => "PermissionDenied"
  | .privilegeGrantFailure => "PrivilegeGrantFailure"
  | .identityCreationFailure => "IdentityCreationFailure"
  | .directoryGrantFailures => "DirectoryGrantFailures"

/-- The kind of a name. -/
def ofName? (s : String) : Option RefusalKind := all.find? fun k => k.name == s

/-- The stable code. -/
def code : RefusalKind → String
  | .provisioning => "SP-E000"
  | .validation => "SP-E1XX"
  | .mutation => "SP-E2XX"
  | .unknownIdentity => "SP-E100"
  | .missingCredential => "SP-E101"
  | .missingTargetIdentity => "SP-E102"
  | .pathNotFound => "SP-E103"
  | .configurationError => "SP-E104"
  | .operationCancelled => "SP-E105"
  | .permissionDenied => "SP-E200"
  | .privilegeGrantFailure => "SP-E201"
  | .identityCreationFailure => "SP-E202"
  | .directoryGrantFailures => "SP-E203"

/-- What is said when nothing more particular is known. -/
def usualMessage : RefusalKind → String
  | .provisioning | .validation | .mutation => "Unknown provisioning error"
  | .unknownIdentity => "Identity does not exist on this host"
  | .missingCredential => "A password is required to create a new account"
  | .missingTargetIdentity => "Directory access was requested but no target identity is set"
  | .pathNotFound => "Path does not exist"
  | .configurationError => "Invalid provisioning configuration"
  | .operationCancelled => "Provisioning cancelled by the operator"
  | .permissionDenied => "Permission denied"
  | .privilegeGrantFailure => "Failed to grant privilege"
  | .identityCreationFailure => "Failed to create account"
  | .directoryGrantFailures => "One or more directory grants failed"

/-- What is advised when nothing more particular is known. -/
def usualResolution : RefusalKind → String
  | .provisioning | .validation | .mutation => ""
  | .unknownIdentity =>
    "Check the account name, or request its creation with --create-user and --password."
  | .missingCredential => "Pass --password together with --create-user."
  | .missingTargetIdentity =>
    "Name the account with --user or --create-user, or pass --current-user to grant access to " ++
      "your own account."
  | .pathNotFound => "Create the directory first or fix the path."
  | .configurationError => "Run with --help to see the supported options."
  | .operationCancelled => "Re-run and confirm, or pass --yes."
  | .permissionDenied => "Re-run from an elevated (administrator / root) session."
  | .privilegeGrantFailure =>
    "Run from an administrator session; the account needs the right to modify the local " ++
      "security policy."
  | .identityCreationFailure =>
    "Check the password against the host's password policy and run from an administrator session."
  | .directoryGrantFailures => "Fix the reported paths and re-run; grants are idempotent."

/-- The kind belongs to the refusals before any change. -/
def isValidation : RefusalKind → Bool
  | .validation | .unknownIdentity | .missingCredential | .missingTargetIdentity | .pathNotFound
  | .configurationError | .operationCancelled => true
  | _ => false

/-- The kind belongs to the failed changes. -/
def isMutation : RefusalKind → Bool
  | .mutation | .permissionDenied | .privilegeGrantFailure | .identityCreationFailure
  | .directoryGrantFailures => true
  | _ => false

end RefusalKind

/-- A refusal: its kind, what is said, what a machine may read, what is advised, and the failure that
it was made from, if it was made from one. -/
structure Refusal where
  kind : RefusalKind
  message : String
  details : List (String × Detail) := []
  resolution : String := kind.usualResolution
  cause : Option Cause := none

namespace Refusal

/-- The refusal of a kind in its usual words. -/
def usual (kind : RefusalKind) : Refusal := { kind, message := kind.usualMessage }

/-- The refusal of a kind with a message and details of its own. -/
def because (kind : RefusalKind) (message : String) (details : List (String × Detail)) : Refusal :=
  { kind, message, details }

/-- The machine-readable record.  Details and advice are left out when there are none. -/
def record (r : Refusal) : List (String × Detail) :=
  [("code", .text r.kind.code), ("message", .text r.message)] ++
    (if r.details.isEmpty then [] else [("detail", .object r.details)]) ++
    (if r.resolution = "" then [] else [("resolution", .text r.resolution)])

/-- What is said of several failed grants. -/
def failuresMessage (failures : List Refusal) : String :=
  toString failures.length ++ " directory grant(s) failed: " ++
    "; ".intercalate (failures.map message)

/-- One refusal for all the directories that could not be granted.  Each failure is kept in the
details; without a message of its own the refusal says what the failures say. -/
def ofFailures (message : Option String) (failures : List Refusal) : Refusal where
  kind := .directoryGrantFailures
  message := message.getD <|
    if failures.isEmpty then RefusalKind.directoryGrantFailures.usualMessage
    else failuresMessage failures
  details := [("failures", .list (failures.map fun f => .object f.record))]

/-- The kinds that a code stands for: every kind but the families. -/
def codedKinds : List RefusalKind :=
  RefusalKind.all.filter fun k => !([.provisioning, .validation, .mutation].contains k)

/-- The refusal of a code.  An empty message is none. -/
def ofCode? (code : String) (message : Option String) : Option Refusal := do
  let kind ← codedKinds.find? fun k => k.code == code
  let given := message.filter (· ≠ "")
  return match kind with
    | .directoryGrantFailures => ofFailures given []
    | _ => { kind, message := given.getD kind.usualMessage }

/-- A refusal, shown as a value. -/
def inspect (r : Refusal) : String :=
  r.kind.name ++ "(code=" ++ Text.quoted r.kind.code ++ ", message=" ++ Text.quoted r.message ++ ")"

end Refusal

end Provisioning
