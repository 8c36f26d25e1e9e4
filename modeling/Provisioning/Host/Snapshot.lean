/-
# `Provisioning.Host.Snapshot` — a host read from the texts of a machine

A machine describes itself in texts: its user database, its mount table, the
status of a process and the environment.  A snapshot is these texts, and
`Snapshot.host` the host that they describe: the users, a directory at every
mount point, and who runs the process.  A line that does not have the form of
its text is passed over.

    user database     name:secret:number:…
    mount table       device point kind options …
    process status    Uid: real effective …       between tabs
-/
import Provisioning.Host.Basic
import Provisioning.Text.Blank
import Provisioning.Text.Given

namespace Provisioning

/-- The texts by which a machine describes itself. -/
structure Snapshot where
  userDatabase : String := ""
  mountTable : String := ""
  processStatus : String := ""
  environment : List (String × String) := []

namespace Snapshot

/-- The fields of every line of a text. -/
def rowsOf (sep : Char) (text : String) : List (List String) :=
  (Text.splitLines text.toList).map fun line => (Text.pieces sep line).map String.ofList

/-- The users and their numbers. -/
def users (s : Snapshot) : List (String × Int) :=
  (rowsOf ':' s.userDatabase).filterMap fun row =>
    match row with
    | name :: _ :: number :: _ => number.toInt?.map fun n => (name, n)
    | _ => none

/-- The mount points. -/
def mountPoints (s : Snapshot) : List Path :=
  (rowsOf ' ' s.mountTable).filterMap fun row =>
    match row with
    | _ :: point :: _ => some (Path.ofString point)
    | _ => none

/-- The user whose rights the process has. -/
def effectiveUser (s : Snapshot) : Int :=
  ((rowsOf '\t' s.processStatus).findSome? fun row =>
    match row with
    | "Uid:" :: _ :: effective :: _ => effective.toInt?
    | _ => none).getD 0

/-- The name of the user at the terminal: what the environment says, or else whose rights the process
has. -/
def login (s : Snapshot) : Except LoginFailure String :=
  let said := ["LOGNAME", "USER", "LNAME", "USERNAME"].findSome? fun v =>
    given (s.environment.lookup v)
  let running := (s.users.find? fun u => u.2 == s.effectiveUser).map Prod.fst
  match said <|> running with
  | some name => .ok name
  | none => .error (.unknownNumber s.effectiveUser)

/-- The host that a snapshot describes. -/
def host (s : Snapshot) : Host where
  tree := Table.ofRows ((Path.ofString "/" :: s.mountPoints).map fun p => (p, {}))
  passwd := s.users
  login := s.login
  environment := Table.ofRows s.environment
  euid := s.effectiveUser

end Snapshot

end Provisioning
