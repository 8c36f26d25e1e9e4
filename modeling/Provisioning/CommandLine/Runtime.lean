/-
# `Provisioning.CommandLine.Runtime` — what the command leaves to its libraries

The command is written on libraries that read its arguments, check its records
and write its log.  What differs between them is taken from a `Runtime`:

    an attached `--`        a value like any other; some readers of arguments take it out
    a failure in the log    shown with where in the program it came from
    an issue of a record    explained at some address

A statement about every runtime is one about all of these libraries.
-/
import Provisioning.Fault.Issue
import Provisioning.Host.Event

namespace Provisioning.CommandLine

/-- The libraries below the command. -/
structure Runtime where
  /-- The mark is kept where it is attached to an option as its value. -/
  keepsMark : Bool := true
  /-- What the log shows of where a refusal came from, by what had happened until then. -/
  traceback : Refusal → Journal → String := fun _ _ => ""
  /-- Where a kind of issue is explained. -/
  explanation : IssueKind → String := fun _ => ""

end Provisioning.CommandLine
