/-
# `Provisioning.Privilege.Basic` — the runner's privileges

The account that runs the sandbox needs three account rights of the local
security policy.  A privilege is one of the three, never a loose text: texts
are read by `Privilege.parse?`, which knows each privilege under its constant
name, the constant name without its ends, and its long name, whatever their
case and whatever white space surrounds them.
-/
import Provisioning.Text.Blank
import Provisioning.Text.Case
import Provisioning.Text.Quoted

namespace Provisioning

/-- The account rights needed to start processes under another identity. -/
inductive Privilege where
  /-- Replace a process-level token. -/
  | assignPrimaryToken
  /-- Act as part of the operating system. -/
  | actAsTrustedComputingBase
  /-- Adjust memory quotas for a process. -/
  | increaseQuota
  deriving DecidableEq, Repr

namespace Privilege

/-- Every privilege, in order of declaration. -/
def all : List Privilege := [.assignPrimaryToken, .actAsTrustedComputingBase, .increaseQuota]

theorem mem_all (p : Privilege) : p ∈ all := by cases p <;> simp [all]

/-- The name that the security policy knows. -/
def constant : Privilege → String
  | .assignPrimaryToken => "SeAssignPrimaryTokenPrivilege"
  | .actAsTrustedComputingBase => "SeTcbPrivilege"
  | .increaseQuota => "SeIncreaseQuotaPrivilege"

/-- The constant name without `Se` and `Privilege`. -/
def short : Privilege → String
  | .assignPrimaryToken => "AssignPrimaryToken"
  | .actAsTrustedComputingBase => "Tcb"
  | .increaseQuota => "IncreaseQuota"

/-- The long name. -/
def member : Privilege → String
  | .assignPrimaryToken => "ASSIGN_PRIMARY_TOKEN"
  | .actAsTrustedComputingBase => "ACT_AS_TRUSTED_COMPUTING_BASE"
  | .increaseQuota => "INCREASE_QUOTA"

theorem constant_eq (p : Privilege) : p.constant = "Se" ++ p.short ++ "Privilege" := by
  cases p <;> decide

theorem constant_inj {p q : Privilege} : p.constant = q.constant ↔ p = q := by
  cases p <;> cases q <;> decide

/-- The spellings of a privilege, in lower case. -/
def aliases (p : Privilege) : List String :=
  ([p.constant, p.short, p.member] ++
    match p with
    | .actAsTrustedComputingBase => ["ActAsTrustedComputingBase"]
    | _ => []).map Text.lower

/-- The privilege a text names. -/
def parse? (name : String) : Option Privilege :=
  all.find? fun p => p.aliases.contains (Text.lower (Text.trim name))

/-- What is said of a text, shown as a value, that names no privilege. -/
def unsupported (shown : String) : String := "Unsupported privilege: " ++ shown

/-- A privilege, shown as a value. -/
def inspect (p : Privilege) : String :=
  "<PrivilegeKind." ++ p.member ++ ": " ++ Text.quoted p.constant ++ ">"

/-- The privilege of a constant name. -/
def ofConstant? (s : String) : Option Privilege := all.find? fun p => p.constant == s

end Privilege

end Provisioning
