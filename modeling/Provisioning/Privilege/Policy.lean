/-
# `Provisioning.Privilege.Policy` — the security policies of a host

Account rights are read from and added to either the table kept in memory or
the security service.  The service knows more rights than the three of this
library; the others are passed over when rights are read and never taken away.

A policy handle is closed however the work on it ends, and what the service
allocated is freed before that.
-/
import Provisioning.Host.Basic

namespace Provisioning

/-- The local security policy of a host. -/
inductive SecurityPolicy where
  /-- The table kept in memory. -/
  | table
  /-- The security service. -/
  | lsa
  deriving DecidableEq

/-! ## The security service -/

namespace Lsa

/-- The hexadecimal text of a status, ten characters wide with its sign. -/
def statusText (status : Int) : String :=
  if status < 0 then "-0x" ++ String.ofList (Text.hex 7 status.natAbs)
  else "0x" ++ String.ofList (Text.hex 8 status.natAbs)

/-- Fail unless a status is success. -/
def check (status : Int) (call : String) (name : Option String) : Run Unit := do
  if status = success then return ()
  let error ← Run.callLsa (.statusToError status) fun h turn =>
    ⟨none, h.lsa.winError turn status, h.lsaAccounts⟩
  let message :=
    call ++ " failed with NTSTATUS " ++ statusText status ++ " (error " ++ toString error ++ ")" ++
      if error = accessDenied then "; run from an elevated administrator session" else ""
  Run.refuse .privilegeGrantFailure message
    [("name", .optional name), ("ntstatus", .int status), ("win_error", .int error)]

/-- The failure to look an account up. -/
def lookupFailure (name : String) (error : Int) : Fault :=
  .refuse .privilegeGrantFailure
    ("LookupAccountNameW failed for '" ++ name ++ "' (error " ++ toString error ++ ")")
    [("name", .text name), ("win_error", .int error)]

/-- Look an account up: first the size of its identifier, then the identifier. -/
def lookupAccount (name : String) : Run Unit := do
  let error ← Run.callLsa (.lookupSize name) fun h turn =>
    let error := h.lsa.sizeError turn h.lsaAccounts name
    ⟨if error = insufficientBuffer then none else some error, error, h.lsaAccounts⟩
  if error = noneMapped then
    Run.refuse .unknownIdentity ("No local account named '" ++ name ++ "'") [("name", .text name)]
  else if error ≠ insufficientBuffer then throw (lookupFailure name error)
  else
    let failed ← Run.callLsa (.lookupSid name) fun h turn =>
      let failure := h.lsa.sidError turn h.lsaAccounts name
      ⟨failure, failure, h.lsaAccounts⟩
    match failed with
    | some error => throw (lookupFailure name error)
    | none => return ()

/-- Open the policy, giving the handle. -/
def openPolicy (access : Nat) : Run Nat := do
  let opened ← Run.callLsa (.openPolicy access) fun h turn =>
    let status := h.lsa.openStatus turn access
    ⟨failureOf status, (turn, status), h.lsaAccounts⟩
  check opened.2 "LsaOpenPolicy" none
  return opened.1

/-- Close a handle. -/
def closePolicy (handle : Nat) : Run Unit :=
  Run.callLsa (.closePolicy handle) fun h _ => ⟨none, (), h.lsaAccounts⟩

/-- Work with the policy open, and close it however the work ends. -/
def withPolicy {α : Type} (access : Nat) (work : Nat → Run α) : Run α := do
  let handle ← openPolicy access
  fun h =>
    match work handle h with
    | .ok a h' => (do closePolicy handle; return a) h'
    | .error e h' => (do closePolicy handle; throw e) h'

/-- The privileges among the rights of an account. -/
def accountRights (name : String) : Run PrivilegeSet := do
  lookupAccount name
  withPolicy lookupNames fun handle => do
    let listed ← Run.callLsa (.enumerateRights handle) fun h turn =>
      let listed := h.lsa.listRights turn h.lsaAccounts name
      ⟨failureOf listed.1, listed, h.lsaAccounts⟩
    if listed.1 = nameNotFound then return {}
    check listed.1 "LsaEnumerateAccountRights" (some name)
    Run.callLsa .freeMemory fun h _ => ⟨none, (), h.lsaAccounts⟩
    let held := listed.2.map CountedText.text
    return PrivilegeSet.ofTest fun p => held.contains p.constant

/-- Names as they are handed to the service, each counted by its characters. -/
def handed (names : List String) : List CountedText := names.map fun n => .holding n n.length

/-- Every privilege is handed over by its own name, since no character of it takes two units. -/
theorem map_text_handed_constants (privileges : PrivilegeSet) :
    (handed privileges.constants).map CountedText.text = privileges.constants := by
  have hone (p : Privilege) : (CountedText.holding p.constant p.constant.length).text = p.constant :=
    CountedText.text_holding (by cases p <;> decide)
  simp [handed, PrivilegeSet.constants, hone]

/-- Add privileges to an account.  Adding none makes no call. -/
def addAccountRights (name : String) (privileges : PrivilegeSet) : Run Unit := do
  if privileges.isEmpty then return ()
  lookupAccount name
  let names := privileges.constants
  let texts := handed names
  withPolicy (lookupNames + createAccount) fun handle => do
    let status ← Run.callLsa (.addRights handle (texts.map CountedText.text)) fun h turn =>
      let added := h.lsa.addRights turn h.lsaAccounts name texts
      ⟨failureOf added.1, added.1, added.2⟩
    check status "LsaAddAccountRights" (some name)
  Run.log .debug .lsa
    ("LsaAddAccountRights(" ++ name ++ ", " ++ Text.quotedList names ++ ") succeeded")

end Lsa

/-! ## Either policy -/

namespace SecurityPolicy

/-- The privileges that an account holds. -/
def accountRights : SecurityPolicy → String → Run PrivilegeSet
  | .table, name => do
    let h ← get
    return h.rights.heldBy name
  | .lsa, name => Lsa.accountRights name

/-- Add privileges to an account. -/
def addAccountRights (policy : SecurityPolicy) (name : String) (privileges : PrivilegeSet) :
    Run Unit := do
  Run.note (.requested (.addPrivileges name privileges))
  match policy with
  | .table =>
    let h ← get
    let rights ← Run.ofExcept (h.rights.add name privileges)
    modify fun h => { h with rights }
  | .lsa => Lsa.addAccountRights name privileges

end SecurityPolicy

end Provisioning
