/-
# `Provisioning.Account.Store` — the account databases of a host

Three databases: the table kept in memory, the accounts that the account
management program knows, and the users of the host.  They differ in what
counts as an existing account and in who the operator is; on the last an
account cannot be created at all.
-/
import Provisioning.Host.Command
import Provisioning.Text.Given

namespace Provisioning

/-- The local account database of a host. -/
inductive IdentityStore where
  /-- The table kept in memory. -/
  | table
  /-- The account management program, and how many seconds it may run. -/
  | netUser (executable : String) (limit : Number)
  /-- The users of the host. -/
  | posix
  deriving DecidableEq

namespace IdentityStore

/-- Create an account with the account management program. -/
def createWithProgram (executable : String) (limit : Number) (name : String)
    (credential : Credential) : Run Unit := do
  let secret := credential.expose
  let out ← Run.mapFault
    (fun
      | .system e => some (couldNotRun (.system e))
      | .timedOut args limit => some (couldNotRun (.overran args limit))
      | _ => none)
    (Run.command [executable, "user", name, secret, "/add"] (some limit) [secret])
  if out.succeeded then Run.log .info .accounts ("Created local account '" ++ name ++ "'")
  else
    Run.refuse .identityCreationFailure
      ("'" ++ executable ++ " user " ++ name ++ " /add' failed: " ++ Text.trim out.complaint)
      [("name", .text name), ("exit_code", .int out.status)]
where
  couldNotRun (cause : Cause) : Fault :=
    .refuseFrom cause .identityCreationFailure
      ("Could not run '" ++ executable ++ " user': " ++ cause.message) [("name", .text name)]

/-- An account of that name exists. -/
def exists? : IdentityStore → String → Run Bool
  | .table, name => do
    let h ← get
    return h.accounts.has name
  | .netUser executable limit, name => do
    let out ← Run.command [executable, "user", name] (some limit) []
    return out.succeeded
  | .posix, name => do
    let uid ← Run.uidOf? name
    return uid.isSome

/-- Create an account. -/
def create (store : IdentityStore) (name : String) (credential : Credential) : Run Unit := do
  Run.note (.requested (.createAccount name))
  match store with
  | .table =>
    let h ← get
    let accounts ← Run.ofExcept (h.accounts.create name credential)
    modify fun h => { h with accounts }
  | .netUser executable limit => createWithProgram executable limit name credential
  | .posix =>
    Run.refuse .identityCreationFailure
      ("Creating account '" ++ name ++ "' is not supported on this platform") [("name", .text name)]

/-- The account of the operator.  Under elevation that is the user who asked for it. -/
def sessionUser : IdentityStore → Run String
  | .table => do
    let h ← get
    return h.accounts.sessionUser
  | .netUser _ _ => Run.login
  | .posix => do
    let h ← get
    match given (h.environment.get? "SUDO_USER") with
    | some name => return name
    | none => Run.login

/-- Who the operator is, as far as the host can tell. -/
def operator : IdentityStore → Host → Except LoginFailure String
  | .table, h => .ok h.accounts.sessionUser
  | .netUser _ _, h => h.login
  | .posix, h =>
    match given (h.environment.get? "SUDO_USER") with
    | some name => .ok name
    | none => h.login

theorem sessionUser_eq (store : IdentityStore) (h : Host) :
    store.sessionUser h =
      match store.operator h with
      | .ok name => .ok name h
      | .error f => .error f.fault h := by
  cases store with
  | table => rfl
  | netUser executable limit => exact Run.login_apply h
  | posix =>
      show (match given (h.environment.get? "SUDO_USER") with
        | some name => pure name
        | none => Run.login : Run String) h = _
      dsimp only [operator]
      cases given (h.environment.get? "SUDO_USER") with
      | some name => rfl
      | none => exact Run.login_apply h

end IdentityStore

end Provisioning
