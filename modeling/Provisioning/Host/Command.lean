/-
# `Provisioning.Host.Command` — running a program and logging it

Every program but the one that proves who the operator is runs through
`Run.command`, which logs the arguments and the exit status.  Secret arguments
are hidden from the log by value: every argument equal to a secret is hidden.
-/
import Provisioning.Host.Basic

namespace Provisioning

/-- What is logged in place of a secret. -/
def hiddenText : String := "********"

/-- The arguments as they may be logged. -/
def preview (args secrets : List String) : List String :=
  args.map fun a => if secrets.contains a then hiddenText else a

namespace Run

/-- Run a program for at most `limit` seconds, if there is a limit, with its start and its end in the
log.  What a non-zero status means is for the caller to say. -/
def command (args : List String) (limit : Option Number) (secrets : List String) :
    Run ProgramOutput := do
  log .debug .commands ("Running: " ++ " ".intercalate (preview args secrets))
  let out ← startProgram args limit
  match args with
  | [] => throw .outOfRange
  | program :: _ =>
    log .debug .commands ("Exit status " ++ toString out.status ++ ": " ++ program)
    return out

end Run

end Provisioning
