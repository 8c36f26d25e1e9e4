/-
# `Provisioning.Report` — what a run has done

A report is begun when the run has been confirmed and filled in as the steps
complete, so the report of a failed run says what had been done before the
failure.  `summary` is the one text shown to the operator.
-/
import Provisioning.Account.Identity
import Provisioning.Privilege.Basic

namespace Provisioning

/-- The outcome of a run. -/
structure Report where
  platform : String
  target : Option Identity := none
  runner : Option Identity := none
  created : Bool := false
  privilegesGranted : List Privilege := []
  directoriesGranted : List String := []
  cgroups : List String := []
  restartRequired : Bool := false
  deriving DecidableEq

namespace Report

/-- Names in alphabetical order. -/
def sortedNames (names : List String) : List String := names.mergeSort fun a b => decide (a ≤ b)

/-- The constant names of privileges, in order. -/
def sortedConstants (ps : List Privilege) : List String := sortedNames (ps.map Privilege.constant)

/-! ## What is said -/

/-- What is said of an account that was created. -/
def createdSentence (name : String) : String := "Created account '" ++ name ++ "'."

/-- What is said of an account that was granted privileges, given as they are listed. -/
def grantedSentence (privileges name : String) : String :=
  "Granted " ++ privileges ++ " to '" ++ name ++ "'."

/-- What is said of a runner that was granted nothing. -/
def heldSentence (name : String) : String := "'" ++ name ++ "' already holds every runner privilege."

/-- What is said of directories, given as they are listed. -/
def accessSentence (name directories : String) : String :=
  "Granted '" ++ name ++ "' access to " ++ directories ++ "."

/-- What is said of the directories of an isolation group, given as they are listed. -/
def cgroupsSentence (cgroups : String) : String := "Provisioned cgroups: " ++ cgroups ++ "."

/-- What is said when new privileges wait for a restart. -/
def restartNotice : String :=
  "Restart the machine (or at least log off and on again) before the new privileges take effect."

/-- The summary made of what is said of the steps of a run. -/
def summaryOf (lines : List String) (restartRequired : Bool) : String :=
  "\n".intercalate
    ((if lines.isEmpty then ["Nothing to do."] else lines) ++
      if restartRequired then [restartNotice] else [])

/-! ## The summary of a report -/

/-- What is said of the created account. -/
def createdLine (r : Report) : List String :=
  match r.created, r.target with
  | true, some t => [createdSentence t.name]
  | _, _ => []

/-- What is said of the runner's privileges. -/
def runnerLine (r : Report) : List String :=
  match r.runner with
  | none => []
  | some who =>
    if r.privilegesGranted.isEmpty then [heldSentence who.name]
    else [grantedSentence (", ".intercalate (sortedConstants r.privilegesGranted)) who.name]

/-- What is said of the directories. -/
def directoriesLine (r : Report) : List String :=
  match r.directoriesGranted, r.target with
  | [], _ => []
  | _, none => []
  | ds, some t => [accessSentence t.name (", ".intercalate ds)]

/-- What is said of the isolation group. -/
def cgroupsLine (r : Report) : List String :=
  match r.cgroups with
  | [] => []
  | cs => [cgroupsSentence (", ".intercalate cs)]

/-- What is said of the steps of the run. -/
def lines (r : Report) : List String :=
  r.createdLine ++ r.runnerLine ++ r.directoriesLine ++ r.cgroupsLine

/-- The outcome in the operator's words. -/
def summary (r : Report) : String := summaryOf r.lines r.restartRequired

/-- A report, shown as a value. -/
def inspect (r : Report) : String :=
  Text.inspectRecord "ProvisioningReport"
    [("platform", Text.quoted r.platform),
      ("target", Text.inspectOption Identity.inspect r.target),
      ("runner", Text.inspectOption Identity.inspect r.runner),
      ("created", Text.inspectBool r.created),
      ("privileges_granted", Text.inspectList Privilege.inspect r.privilegesGranted),
      ("directories_granted", Text.quotedList r.directoriesGranted),
      ("cgroups", Text.quotedList r.cgroups),
      ("restart_required", Text.inspectBool r.restartRequired)]

/-- A report as a machine reads it. -/
def dump (r : Report) : Detail :=
  .object
    [("platform", .text r.platform),
      ("target", r.target.elim .null Identity.dump),
      ("runner", r.runner.elim .null Identity.dump),
      ("created", .bool r.created),
      ("privileges_granted", .texts (r.privilegesGranted.map Privilege.constant)),
      ("directories_granted", .texts r.directoriesGranted),
      ("cgroups", .texts r.cgroups),
      ("restart_required", .bool r.restartRequired)]

end Report

end Provisioning
