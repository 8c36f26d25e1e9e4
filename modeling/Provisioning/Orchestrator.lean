/-
# `Provisioning.Orchestrator` — one run, from request to report

A run goes through its stages in this order, and a stage that fails ends it.

    validate     every check that needs no change of the host
    confirm      the operator is asked once, if anyone can be asked and the plan is not empty
    resolve      the target account is looked up or created
    provision    what the platform does

The report is begun after the confirmation and kept, so after a failure it
says what had been done.  What completed is not undone: every step is
idempotent, and running the same request again picks up where the failure was.
-/
import Provisioning.Capability

namespace Provisioning

/-- What drives runs. -/
structure Orchestrator where
  capability : Capability
  config : Config := {}
  confirmation : Option Confirmation := none

/-- A host and the report kept from the latest run that was confirmed on it. -/
structure Session where
  host : Host
  report : Option Report := none

namespace Orchestrator

/-! ## Validate -/

/-- The directories of a list at which there is nothing. -/
def missingDirectories : List String → Run (List String)
  | [] => return []
  | p :: ps => do
    let found ← Run.pathExists (Path.ofString p)
    let others ← missingDirectories ps
    return if found then others else p :: others

/-- Check the options of a request against each other. -/
def checkOptions (request : Request) : Except Fault Unit :=
  match given request.createUser, given request.user with
  | some name, user =>
    if !request.hasPassword then
      .error (.refuse .missingCredential
        ("Cannot create account '" ++ name ++ "' without a password") [("name", .text name)])
    else
      match user with
      | some user =>
        .error (.refuse .configurationError "Use either --user or --create-user, not both"
          [("user", .text user), ("create_user", .text name)])
      | none => .ok ()
  | none, some _ => .ok ()
  | none, none =>
    if request.directories.isEmpty || request.useSessionIdentity then .ok ()
    else .error (Capability.noTarget request)

/-- Check a request without a change. -/
def validate (o : Orchestrator) (request : Request) : Run Unit := do
  Run.ofExcept (checkOptions request)
  let missing ← missingDirectories request.directories
  if !missing.isEmpty then
    Run.refuse .pathNotFound ("Path does not exist: " ++ ", ".intercalate missing)
      [("paths", .texts missing)]
  match given request.user with
  | none => pure ()
  | some user =>
    let _ ← o.capability.identities.resolve (some user)
  o.capability.validate request

/-! ## Confirm -/

/-- The question that is asked about a plan. -/
def question (plan : List String) : String :=
  "The following changes will be made:\n" ++
    "\n".intercalate (plan.map fun line => "  - " ++ line) ++ "\nContinue?"

/-- Ask about the plan of a request, unless nobody is to be asked or there is nothing to ask about. -/
def confirm (o : Orchestrator) (request : Request) : Run Unit := do
  if o.config.assumeYes then return ()
  match o.confirmation with
  | none => return ()
  | some ask =>
    let plan ← o.capability.describe request
    if plan.isEmpty then return ()
    let answer ← ask (question plan)
    Run.note (.asked (question plan) answer)
    if answer then return () else throw (.refused (Refusal.usual .operationCancelled))

/-! ## Resolve and provision -/

/-- The account that directories are granted to, if the request has one. -/
def resolveTarget (o : Orchestrator) (request : Request) : Step (Option Identity) := do
  let store := o.capability.identities
  if (given request.createUser).isSome then
    let target ← store.resolveOrCreate request.createUser request.password
    Step.report fun r => { r with created := target.source == .created, target := some target }
    return some target
  else if (given request.user).isSome then
    let target ← store.resolve request.user
    Step.report fun r => { r with target := some target }
    return some target
  else if !request.directories.isEmpty && request.useSessionIdentity then
    let target ← store.resolve none
    Step.report fun r => { r with target := some target }
    return some target
  else return none

/-- The stages after the confirmation. -/
def apply (o : Orchestrator) (request : Request) : Step Unit := do
  let target ← o.resolveTarget request
  o.capability.provision request target
  Step.ofRun (Run.log .info .orchestrator ("Provisioning finished on " ++ o.capability.name))

/-- Run a request.  The session keeps the report of the latest run that got as far as having one. -/
def run (o : Orchestrator) (request : Request) : EStateM Fault Session Report := fun s =>
  match (do o.validate request; o.confirm request : Run Unit) s.host with
  | .error e h => .error e { s with host := h }
  | .ok _ h =>
    match o.apply request ⟨h, { platform := o.capability.name }⟩ with
    | .error e p => .error e ⟨p.host, some p.report⟩
    | .ok _ p => .ok p.report ⟨p.host, some p.report⟩

end Orchestrator

end Provisioning
