/-
# `Provisioning.Host.Program` — external programs

A run starts external programs with an explicit list of arguments.  How the
programs of a host behave is a function of what was started before, of what is
started now, and of the file tree, which it may change: so a program may
answer each time differently, and a statement about every function is one
about every behaviour.
-/
import Provisioning.Fault.Basic
import Provisioning.Host.Tree

namespace Provisioning

/-- The start of a program: its arguments, itself the first, and how many seconds it may run. -/
structure Invocation where
  args : List String
  limit : Option Number
  deriving DecidableEq

/-- How a program that ran to its end ended. -/
structure ProgramOutput where
  status : Int := 0
  stdout : String := ""
  stderr : String := ""
  deriving DecidableEq

namespace ProgramOutput

/-- The program reports success. -/
def succeeded (o : ProgramOutput) : Bool := o.status == 0

/-- What a failed program says: its error output, or else its output. -/
def complaint (o : ProgramOutput) : String := if o.stderr = "" then o.stdout else o.stderr

end ProgramOutput

/-- The behaviour of all programs of a host: after the earlier starts, a start ends in an output or a
failure and in a file tree. -/
abbrev Programs := List Invocation → Invocation → Tree → Except Fault ProgramOutput × Tree

/-- Programs that do nothing and report success. -/
def Programs.idle : Programs := fun _ _ tree => (.ok {}, tree)

end Provisioning
