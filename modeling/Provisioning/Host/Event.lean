/-
# `Provisioning.Host.Event` — the journal of a host

Everything observable that happens on a host is written down in one journal,
in order: what is logged, what the operator is asked and answers, what is
printed, which changes a step asks for, and what reaches the programs, the
security service and the file tree below.  A channel (the log, the list of
programs started) is a projection of the journal, so the order across
channels is never lost.
-/
import Provisioning.Directory.Rights
import Provisioning.Host.Lsa
import Provisioning.Host.Program
import Provisioning.Privilege.Set

namespace Provisioning

/-- How important a log record is. -/
inductive LogLevel where
  | debug
  | info
  | warning
  | error
  deriving DecidableEq, Repr

/-- The name of a level. -/
def LogLevel.text : LogLevel → String
  | .debug => "DEBUG"
  | .info => "INFO"
  | .warning => "WARNING"
  | .error => "ERROR"

/-- The part of the program that logs. -/
inductive LogSource where
  | commands
  | resolver
  | privileges
  | directories
  | accounts
  | lsa
  | cgroups
  | filesystem
  | platform
  | orchestrator
  | commandLine
  deriving DecidableEq, Repr

/-- The name under which a part logs. -/
def LogSource.text : LogSource → String
  | .commands => "sp_provision.core.commands"
  | .resolver => "sp_provision.identity.resolver"
  | .privileges => "sp_provision.windows.privileges"
  | .directories => "sp_provision.windows.acl"
  | .accounts => "sp_provision.windows.accounts"
  | .lsa => "sp_provision.windows.lsa"
  | .cgroups => "sp_provision.linux.cgroups"
  | .filesystem => "sp_provision.linux.filesystem"
  | .platform => "sp_provision.platform"
  | .orchestrator => "sp_provision.orchestrator"
  | .commandLine => "sp_provision.cli"

/-- A record of the log. -/
structure LogRecord where
  level : LogLevel
  source : LogSource
  message : String
  /-- Where the failure that the record is about came from, if that is to be shown. -/
  traceback : String := ""
  deriving DecidableEq, Repr

/-- The text of a record: a line, and the traceback below it if there is one. -/
def LogRecord.text (r : LogRecord) : String :=
  r.level.text ++ " " ++ r.source.text ++ ": " ++ r.message ++
    (if r.traceback = "" then "" else "\n" ++ r.traceback)

/-- A change of the host that a step asks its backend for. -/
inductive Change where
  | createAccount (name : String)
  | addPrivileges (name : String) (privileges : PrivilegeSet)
  | setEntry (path name : String) (rights : AccessRights)
  | ensureDirectory (path : Path)
  | changeOwner (path : Path) (owner : String)
  deriving DecidableEq

/-- Something observable that happened. -/
inductive Event where
  | logged (r : LogRecord)
  /-- The operator was asked and answered. -/
  | asked (prompt : String) (answer : Bool)
  | printed (text : String)
  | printedError (text : String)
  /-- A step asked for a change, whether it succeeds or not. -/
  | requested (change : Change)
  /-- A program was started; its exit status, if it ran to its end. -/
  | started (invocation : Invocation) (status : Option Int)
  /-- The security service was called; how the call failed, if it did. -/
  | called (call : LsaCall) (failure : Option Int)
  /-- The file tree gave an entry, met on the way from `start`, to a user. -/
  | chowned (start path : Path) (uid : Int)
  deriving DecidableEq

/-- What happened on a host, in order. -/
abbrev Journal := List Event

namespace Journal

/-- The log. -/
def log (j : Journal) : List LogRecord := j.filterMap fun | .logged r => some r | _ => none

/-- The prompts, with the answers. -/
def prompts (j : Journal) : List (String × Bool) :=
  j.filterMap fun | .asked p a => some (p, a) | _ => none

/-- The changes asked for. -/
def changes (j : Journal) : List Change := j.filterMap fun | .requested c => some c | _ => none

/-- The programs started, with their exit statuses. -/
def programRuns (j : Journal) : List (Invocation × Option Int) :=
  j.filterMap fun | .started i s => some (i, s) | _ => none

/-- The programs started. -/
def invocations (j : Journal) : List Invocation := j.programRuns.map Prod.fst

/-- The calls of the security service, with their failures. -/
def lsaAnswers (j : Journal) : List (LsaCall × Option Int) :=
  j.filterMap fun | .called c f => some (c, f) | _ => none

/-- The calls of the security service. -/
def lsaCalls (j : Journal) : List LsaCall := j.lsaAnswers.map Prod.fst

/-- The entries given to users. -/
def chowns (j : Journal) : List (Path × Int) :=
  j.filterMap fun | .chowned _ p u => some (p, u) | _ => none

/-- The entries given to users, in the spelling of the calls. -/
def chownCalls (j : Journal) : List (String × Int) :=
  j.filterMap fun | .chowned start p u => some (p.spelledFrom start, u) | _ => none

/-- What was printed to the standard output. -/
def output (j : Journal) : String :=
  String.join (j.filterMap fun | .printed t => some t | _ => none)

/-- What appears on the error output when log records from `level` on are shown there. -/
def errorOutput (shows : LogLevel → Bool) (j : Journal) : String :=
  String.join (j.filterMap fun
    | .printedError t => some t
    | .logged r => if shows r.level then some (r.text ++ "\n") else none
    | _ => none)

end Journal

end Provisioning
