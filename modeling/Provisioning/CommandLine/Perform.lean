/-
# `Provisioning.CommandLine.Perform` — the command, from arguments to exit status

The command reads its arguments, makes the request, runs it, and says on its
two outputs what came of it.

    run completed                            summary on the output      0
    operator declined or interrupted         notice on the error output 130
    refusal, or error of the system          "error:" and a hint        1
    wrong command line                       usage on the error output  2, by exit

A failed run that had already granted privileges says so, since they wait for
a restart.  The log goes to the error output, in order with the messages: all
of it when the command is verbose, and what is not only for debugging
otherwise.  A refusal is logged with where it came from.

No failure is handled where the summary is put on the output: if that fails,
so does the command.
-/
import Provisioning.CommandLine.Parser
import Provisioning.CommandLine.Terminal

namespace Provisioning.CommandLine

/-- How the command ends. -/
inductive Ending where
  /-- With a status. -/
  | returned (status : Nat)
  /-- By leaving at once, before anything was run. -/
  | exited (status : Nat)
  /-- With a failure that nothing handles. -/
  | escaped (fault : Fault)

/-- What a call of the command leaves behind. -/
structure Performance where
  ending : Ending
  output : String
  errorOutput : String
  host : Host

/-- What is said when privileges were granted before a failure. -/
def restartAfterFailure : String :=
  "Privileges were granted before the failure; restart the machine before they take effect.\n"

/-- The variant of the command for a capability, or for the operating system without one. -/
def platformOf (capability : Option Capability) (h : Host) : Platform :=
  match capability with
  | some (.windows ..) => .windows
  | some (.linux ..) => .linux
  | none => if h.system = "win32" then .windows else .linux

/-- Run a request with a capability, by default the host's own. -/
def runRequest (capability : Option Capability) (config : Config) (confirmation : Confirmation)
    (request : Request) : EStateM Fault Session Report := fun s =>
  match capability with
  | some capability =>
    Orchestrator.run { capability, config, confirmation := some confirmation } request s
  | none =>
    match Capability.ofHost config s.host with
    | .error e h => .error e { s with host := h }
    | .ok capability h =>
      let fresh := { h with elevationValidated := false }
      let restored (s : Session) : Session :=
        { s with host := { s.host with elevationValidated := h.elevationValidated } }
      match Orchestrator.run { capability, config, confirmation := some confirmation } request
          { s with host := fresh } with
      | .ok report s => .ok report (restored s)
      | .error e s => .error e (restored s)

/-- What is said of a refusal, given the report kept when it arose. -/
def refusalText (r : Refusal) (report : Option Report) : String :=
  "error: " ++ r.message ++ "\n" ++
    (if r.resolution = "" then "" else "hint: " ++ r.resolution ++ "\n") ++
    (if report.any Report.restartRequired then restartAfterFailure else "")

/-- What is said of a cancelled run. -/
def cancelledText : String := RefusalKind.operationCancelled.usualMessage ++ "\n"

/-- The record of a refused run, with where the refusal came from. -/
def runFailed (runtime : Runtime) (r : Refusal) (s : Session) : LogRecord where
  level := .debug
  source := .commandLine
  message := "Run failed"
  traceback := runtime.traceback r s.host.journal

/-- Say what came of a run. -/
def conclude (runtime : Runtime) : EStateM.Result Fault Session Report → Host × Ending
  | .ok report s =>
    match s.host.outputFailure (report.summary ++ "\n") with
    | none => (noted s [.printed (report.summary ++ "\n")], .returned 0)
    | some f => (s.host, .escaped f.fault)
  | .error (.refused r) s =>
    if r.kind = .operationCancelled then
      (noted s [.printedError (r.message ++ "\n")], .returned 130)
    else
      (noted s [.printedError (refusalText r s.report), .logged (runFailed runtime r s)],
        .returned 1)
  | .error .interrupted s =>
    (noted s [.printedError "\n", .printedError cancelledText], .returned 130)
  | .error (.system e) s => (noted s [.printedError ("error: " ++ e.toString ++ "\n")], .returned 1)
  | .error e s => (s.host, .escaped e)
where
  noted (s : Session) (events : List Event) : Host :=
    { s.host with journal := s.host.journal ++ events }

/-- The log records that the command shows. -/
def shows (verbose : Bool) (level : LogLevel) : Bool := verbose || level != .debug

/-- What a command shows of what happened since a host was as it was. -/
def performance (verbose : Bool) (before : Host) (after : Host) (ending : Ending) : Performance :=
  let news := after.journal.drop before.journal.length
  { ending, output := Journal.output news, errorOutput := Journal.errorOutput (shows verbose) news,
    host := after }

/-- A command that leaves at once. -/
def leave (h : Host) (status : Nat) (output errorOutput : String) : Performance :=
  { ending := .exited status, output, errorOutput, host := h }

/-- What is said of an issue with one of some fields: where it is, what is wrong with the value that
was offered there, and where that is explained. -/
def issueText (runtime : Runtime) (fields : Schema.Fields) (i : Issue) : String :=
  let place : Place → String
    | .field n => n
    | .item i => toString i
  let offered : Schema.Datum :=
    match i.place with
    | .field name :: _ => (Schema.fieldOf? name fields).getD .null
    | _ => .null
  ".".intercalate (i.place.map place) ++ "\n  " ++ i.kind.message ++
    " [type=" ++ i.kind.tag ++ ", input_value=" ++ offered.inspect ++
    ", input_type=" ++ offered.typeName ++ "]\n    For further information visit " ++
    runtime.explanation i.kind

/-- The complaint about a request that cannot be made from some fields. -/
def invalidRequestText (runtime : Runtime) (model : String) (fields : Schema.Fields)
    (issues : List Issue) : String :=
  toString issues.length ++ " validation error" ++ (if issues.length = 1 then "" else "s") ++
    " for " ++ model ++ String.join (issues.map fun i => "\n" ++ issueText runtime fields i)

/-- Perform the command on a host. -/
def perform (runtime : Runtime) (argv : List String) (capability : Option Capability)
    (confirmation : Confirmation) (h : Host) : Performance :=
  let platform := platformOf capability h
  match parse runtime platform argv with
  | .error .help => leave h 0 platform.help ""
  | .error .version => leave h 0 versionText ""
  | .error (.complaint message) => leave h 2 "" (platform.complaint message)
  | .ok settings =>
    match settings.request platform with
    | .error (.invalid model issues) =>
      leave h 2 "" (platform.complaint (invalidRequestText runtime model settings.requestFields issues))
    | .error e => { ending := .escaped e, output := "", errorOutput := "", host := h }
    | .ok request =>
      let concluded := conclude runtime
        (runRequest capability { assumeYes := settings.yes } confirmation request ⟨h, none⟩)
      performance settings.verbose h concluded.1 concluded.2

end Provisioning.CommandLine
