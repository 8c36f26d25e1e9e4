/-
# `Provisioning.Proofs.Windows.Stages` — what a request comes to, stage by stage

With the accounts, the account rights and the access lists kept in memory,
what becomes of a run depends on the request and the stores alone.  Here it is
said what the stores are after each stage, and how a run can end.

    accepted   what validation asks for (`Accepted`)
    target     the accounts with the one to be created (`withTarget`)
    runner     what the runner lacks of the privileges is added (`withRunner`)
    complete   every directory is offered to the target (`complete`)

An accepted run goes through these in order.  It returns when nothing keeps it
from that (`Ready`), and leaves the last; or it stops in one of them, for one
of the reasons listed by `Stopped`.
-/
import Provisioning.Orchestrator
import Provisioning.Proofs.Directory.Table
import Provisioning.Proofs.Privilege.Table

namespace Provisioning

/-- The run is on windows, with every backend kept in memory. -/
def Orchestrator.OnTables (o : Orchestrator) : Prop := o.capability = .windows .table .table .table

/-! ## Whom a request is about -/

namespace Request

/-- The name of the account that directories are granted to. -/
def targetName (request : Request) (sessionUser : String) : Option String :=
  match given request.createUser with
  | some name => some name
  | none =>
    match given request.user with
    | some name => some name
    | none =>
      if !request.directories.isEmpty && request.useSessionIdentity then some sessionUser else none

/-- The name of the account that privileges are granted to. -/
def runnerName (request : Request) (sessionUser : String) : String :=
  match given request.runner, request.targetName sessionUser with
  | some name, some target => if sameAccount (some name) (some target) then target else name
  | _, _ => request.runner.getD sessionUser

/-- The name of the account that is to receive privileges, if there is to be one. -/
def grantee (request : Request) (sessionUser : String) : Option String :=
  if request.runnerRequested then some (request.runnerName sessionUser) else none

/-- The request has an account created that is not there yet. -/
def creates (request : Request) (t : AccountTable) : Bool :=
  (given request.createUser).any fun name => !t.has name

end Request

/-- What a report says of changes: whether an account was created, which privileges were granted,
and whether those wait for a restart. -/
def Report.changes (R : Report) : Bool × List Privilege × Bool :=
  (R.created, R.privilegesGranted, R.restartRequired)

/-- The accounts with the one that a request creates. -/
def AccountTable.ensured (t : AccountTable) (request : Request) : AccountTable :=
  match given request.createUser, request.password with
  | some name, some credential => t.withAccount name credential
  | _, _ => t

namespace AccountTable

variable {t : AccountTable} {request : Request} {name : String}

theorem ensured_of_create {credential : Credential} (hname : given request.createUser = some name)
    (hpassword : request.password = some credential) :
    t.ensured request = t.withAccount name credential := by
  rw [ensured, hname, hpassword]

theorem ensured_of_none (hname : given request.createUser = none) : t.ensured request = t := by
  rw [ensured, hname]

/-- Either nothing is created or the account of the name that the request gives. -/
theorem ensured_cases (t : AccountTable) (request : Request) :
    t.ensured request = t ∨ ∃ name credential, given request.createUser = some name ∧
      t.ensured request = t.withAccount name credential := by
  unfold ensured
  split
  · rename_i name credential hname hpassword
    exact .inr ⟨name, credential, hname, rfl⟩
  · exact .inl rfl

@[simp] theorem sessionUser_ensured (t : AccountTable) (request : Request) :
    (t.ensured request).sessionUser = t.sessionUser := by
  obtain h | ⟨name, credential, -, h⟩ := ensured_cases t request
  · rw [h]
  · rw [h, sessionUser_withAccount]

theorem has_ensured_of_has (h : t.has name = true) (request : Request) :
    (t.ensured request).has name = true := by
  obtain hsame | ⟨new, credential, -, hnew⟩ := ensured_cases t request
  · rw [hsame, h]
  · rw [hnew, has_withAccount_of_has h]

theorem has_empty_ensured (t : AccountTable) (request : Request) :
    (t.ensured request).has "" = t.has "" := by
  obtain hsame | ⟨new, credential, hname, hnew⟩ := ensured_cases t request
  · rw [hsame]
  · rw [hnew, has_empty_withAccount (given_eq_some_iff.1 hname).2]

end AccountTable

/-- The rights with what the runner of a request lacks of its privileges. -/
def RightsTable.granted (t : RightsTable) (request : Request) (sessionUser : String) :
    RightsTable :=
  if request.runnerRequested then
    t.withPrivileges (request.runnerName sessionUser) request.privileges
  else t

/-- The access lists after the target of a request was offered its directories. -/
def AccessTable.offered (t : AccessTable) (request : Request) (sessionUser : String) :
    AccessTable :=
  match request.targetName sessionUser with
  | some target => t.offerAll target request.rights request.directories
  | none => t

theorem AccessTable.offered_of_directories_nil {request : Request} (h : request.directories = [])
    (t : AccessTable) (sessionUser : String) : t.offered request sessionUser = t := by
  unfold offered
  rw [h]
  split <;> rfl

namespace Stores

/-- The stores after the target of a run was resolved. -/
def withTarget (S : Stores) (request : Request) : Stores :=
  { S with accounts := S.accounts.ensured request }

/-- The stores after the runner was granted its privileges. -/
def withRunner (S : Stores) (request : Request) : Stores :=
  { S.withTarget request with rights := S.rights.granted request S.accounts.sessionUser }

/-- The stores after the target was offered its directories. -/
def complete (S : Stores) (request : Request) : Stores :=
  { S.withRunner request with access := S.access.offered request S.accounts.sessionUser }

end Stores

/-! ## What validation asks for -/

open AccessControl (Reachable)

/-- What makes a request acceptable. -/
structure Accepted (request : Request) (S : Stores) : Prop where
  options : Orchestrator.checkOptions request = .ok ()
  paths : ∀ path ∈ request.directories, Reachable S.tree path
  user : ∀ name, given request.user = some name → S.accounts.has name = true
  /-- A runner who is about to be created need not be there yet. -/
  runner : ∀ name, given request.runner = some name →
    sameAccount (some name) request.createUser = false → S.accounts.has name = true

namespace Orchestrator

variable {request : Request}

/-- Whoever is to be created has a password, and nobody else is named as the target. -/
theorem of_checkOptions {name : String} (hoptions : checkOptions request = .ok ())
    (hname : given request.createUser = some name) :
    given request.user = none ∧
      ∃ credential, request.password = some credential ∧ credential.isGiven = true := by
  unfold checkOptions at hoptions
  rw [hname] at hoptions
  dsimp only at hoptions
  split at hoptions
  · exact nomatch hoptions
  · rename_i hpassword
    have hgiven : request.hasPassword = true := by simpa using hpassword
    refine ⟨?_, by simpa [Request.hasPassword, Option.any_eq_true] using hgiven⟩
    cases huser : given request.user with
    | none => rfl
    | some user =>
        rw [huser] at hoptions
        exact nomatch hoptions

/-- Directories are only granted to someone. -/
theorem exists_targetName (hoptions : checkOptions request = .ok ())
    (hpaths : request.directories ≠ []) (sessionUser : String) :
    ∃ name, request.targetName sessionUser = some name := by
  unfold Request.targetName
  cases hcreate : given request.createUser with
  | some name => exact ⟨name, rfl⟩
  | none =>
      cases huser : given request.user with
      | some name => exact ⟨name, rfl⟩
      | none =>
          cases hsession : request.useSessionIdentity with
          | true => exact ⟨sessionUser, by simp [hpaths]⟩
          | false =>
              rw [checkOptions, hcreate, huser] at hoptions
              simp [hpaths, hsession] at hoptions

end Orchestrator

variable {request : Request} {S S' : Stores}

theorem Accepted.withTarget_ne_iff (accepted : Accepted request S) :
    S.withTarget request ≠ S ↔ request.creates S.accounts = true := by
  have haccounts : S.withTarget request = S ↔ S.accounts.ensured request = S.accounts :=
    ⟨fun h => congrArg Stores.accounts h, fun h => by rw [Stores.withTarget, h]⟩
  rw [Ne, haccounts, Request.creates]
  cases hcreate : given request.createUser with
  | none => simp [AccountTable.ensured_of_none hcreate]
  | some name =>
      obtain ⟨-, credential, hpassword, -⟩ := Orchestrator.of_checkOptions accepted.options hcreate
      rw [AccountTable.ensured_of_create hcreate hpassword]
      cases hhas : S.accounts.has name with
      | true => simp [AccountTable.withAccount_of_has hhas, hhas]
      | false => simp [AccountTable.withAccount_ne hhas credential, hhas]

/-- What validation asks for concerns the accounts that exist and the tree. -/
theorem Accepted.of_has (accepted : Accepted request S) (htree : S'.tree = S.tree)
    (hhas : ∀ name, S.accounts.has name = true → S'.accounts.has name = true) :
    Accepted request S' where
  options := accepted.options
  paths := by rw [htree]; exact accepted.paths
  user name hname := hhas name (accepted.user name hname)
  runner name hname hnew := hhas name (accepted.runner name hname hnew)

/-! ## How an accepted run ends -/

/-- What the runner of a request lacks of its privileges. -/
def runnerLacks (request : Request) (S : Stores) : PrivilegeSet :=
  S.rights.lacking (request.runnerName S.accounts.sessionUser) request.privileges

/-- Nothing keeps the runner of a request from its privileges. -/
structure RunnerReady (request : Request) (S : Stores) : Prop where
  named : request.runnerName S.accounts.sessionUser ≠ ""
  known : (S.accounts.ensured request).has (request.runnerName S.accounts.sessionUser) = true
  allowed : (runnerLacks request S).isEmpty = true ∨ S.rights.failure = none

/-- Nothing keeps a target of a request from its directories. -/
structure TargetReady (request : Request) (S : Stores) (name : String) : Prop where
  known : (S.accounts.ensured request).has name = true
  allowed : ∀ path ∈ request.directories, S.access.Open name request.rights path

/-- Nothing keeps an accepted run from returning. -/
structure Ready (request : Request) (S : Stores) : Prop where
  named : request.targetName S.accounts.sessionUser ≠ some ""
  runner : request.runnerRequested = true → RunnerReady request S
  target : request.directories ≠ [] → ∀ name,
    request.targetName S.accounts.sessionUser = some name → TargetReady request S name

/-- The parts of a run, in any of which it can fail. -/
inductive Phase where
  /-- The request is validated and confirmed. -/
  | consent
  /-- The target is looked up or created. -/
  | target
  /-- The runner is looked up and granted its privileges. -/
  | runner
  /-- The target is granted its directories. -/
  | directories
  deriving DecidableEq

/-- Why an accepted run stops, in which part of it, and in which stores. -/
inductive Stopped (request : Request) (S : Stores) : Phase → Fault → Stores → Prop where
  /-- The operator's own account is the target, and has no name. -/
  | targetUnnamed (hempty : request.targetName S.accounts.sessionUser = some "") :
      Stopped request S .target (.invalid "Identity" [.inField "name" .stringEmpty]) S
  /-- The runner has no name. -/
  | runnerUnnamed (hrequested : request.runnerRequested = true)
      (hempty : request.runnerName S.accounts.sessionUser = "")
      (hknown : ¬ (request.runner = some "" ∧ S.accounts.has "" = false)) :
      Stopped request S .runner (.invalid "Identity" [.inField "name" .stringEmpty])
        (S.withTarget request)
  /-- The runner is given as empty, and there is no account without a name. -/
  | runnerUnknown (hrequested : request.runnerRequested = true)
      (hempty : request.runner = some "") (hnew : S.accounts.has "" = false) :
      Stopped request S .runner (IdentityStore.unknownAccount "") (S.withTarget request)
  /-- The account of the runner is not there. -/
  | runnerMissing {name : String} (hrequested : request.runnerRequested = true)
      (hname : request.runnerName S.accounts.sessionUser = name) (hne : name ≠ "")
      (hnew : (S.accounts.ensured request).has name = false) :
      Stopped request S .runner (IdentityStore.unknownAccount name) (S.withTarget request)
  /-- The runner lacks privileges, and grants are refused. -/
  | grantRefused {f : Fault} (hrequested : request.runnerRequested = true)
      (hnamed : request.runnerName S.accounts.sessionUser ≠ "")
      (hlacking : (runnerLacks request S).isEmpty = false) (hfailure : S.rights.failure = some f) :
      Stopped request S .runner
        (SecurityPolicy.grantFault (request.runnerName S.accounts.sessionUser) f)
        (S.withTarget request)
  /-- The account of the target is not there. -/
  | targetMissing {name : String} (hrunner : request.runnerRequested = true → RunnerReady request S)
      (hpaths : request.directories ≠ [])
      (hname : request.targetName S.accounts.sessionUser = some name)
      (hnew : (S.accounts.ensured request).has name = false) :
      Stopped request S .directories (IdentityStore.unknownAccount name) (S.withRunner request)
  /-- A directory is not open to the target. -/
  | pathClosed {name : String}
      (hrunner : request.runnerRequested = true → RunnerReady request S)
      (hpaths : request.directories ≠ [])
      (hname : request.targetName S.accounts.sessionUser = some name)
      (hclosed : ¬ ∀ path ∈ request.directories, S.access.Open name request.rights path) :
      Stopped request S .directories
        (.refused (AccessControl.denials (S.access.closed name request.rights request.directories)))
        (S.complete request)

/-- The stores that a run can leave. -/
inductive Stage (request : Request) (S : Stores) : Stores → Prop where
  | accepted : Stage request S S
  | target : Stage request S (S.withTarget request)
  | runner : Stage request S (S.withRunner request)
  | complete : Stage request S (S.complete request)

variable {phase : Phase}

theorem Stopped.stage {e : Fault} (hstopped : Stopped request S phase e S') :
    Stage request S S' := by
  cases hstopped with
  | targetUnnamed => exact .accepted
  | runnerUnnamed | runnerUnknown | runnerMissing | grantRefused => exact .target
  | targetMissing => exact .runner
  | pathClosed => exact .complete

theorem Stopped.not_ready {e : Fault} (hstopped : Stopped request S phase e S') :
    ¬ Ready request S := by
  intro ready
  cases hstopped with
  | targetUnnamed hempty => exact ready.named hempty
  | runnerUnnamed hrequested hempty => exact (ready.runner hrequested).named hempty
  | runnerUnknown hrequested hempty hnew =>
      refine (ready.runner hrequested).named ?_
      rw [Request.runnerName, hempty]
      rfl
  | runnerMissing hrequested hname hne hnew =>
      have hknown := (ready.runner hrequested).known
      rw [hname, hnew] at hknown
      exact nomatch hknown
  | grantRefused hrequested hnamed hlacking hfailure =>
      rcases (ready.runner hrequested).allowed with hnone | hallowed
      · rw [hlacking] at hnone
        exact nomatch hnone
      · rw [hfailure] at hallowed
        exact nomatch hallowed
  | targetMissing hrunner hpaths hname hnew =>
      have hknown := (ready.target hpaths _ hname).known
      rw [hnew] at hknown
      exact nomatch hknown
  | pathClosed hrunner hpaths hname hclosed =>
      exact hclosed (ready.target hpaths _ hname).allowed

/-- What the report of a finished run says of changes. -/
def Orchestrator.changesOf (request : Request) (S : Stores) : Bool × List Privilege × Bool :=
  (request.creates S.accounts,
    if request.runnerRequested then
      ((runnerLacks request S).toList, !(runnerLacks request S).isEmpty)
    else ([], false))

namespace Report

/-- The report after the target of a run was resolved. -/
def ofTarget (platform : String) (request : Request) (S : Stores) (target : Option Identity) :
    Report :=
  { platform, created := request.creates S.accounts, target }

/-- The report after the runner of a run was granted what it lacks. -/
def withRunner (R : Report) (request : Request) (S : Stores) (i : Identity) : Report :=
  { R with
    runner := some i
    privilegesGranted := (runnerLacks request S).toList
    restartRequired := !(runnerLacks request S).isEmpty }

/-- The report of a finished run tells whom it was about and what was done. -/
structure Tells (R : Report) (request : Request) (S : Stores) : Prop where
  target : R.target.map Identity.name = request.targetName S.accounts.sessionUser
  runner : R.runner.map Identity.name = request.grantee S.accounts.sessionUser
  changes : R.changes = Orchestrator.changesOf request S
  directories : R.directoriesGranted = request.directories

end Report

end Provisioning
