/-
# `Provisioning.Host.Console` — what may fail at the console of a host

Who sits at the terminal is told by the environment, or else by the user
database, and need not be known to either.  The output takes most texts, but
it may be closed, or lack a character.  The error output replaces what it
lacks, and takes every text.

    login      no variable, and no user of the number of the process
               no variable, and no user database
    output     a character that cannot be written
    both       an error of the system
-/
import Provisioning.Fault.Basic

namespace Provisioning

/-- Why nobody can tell who sits at the terminal. -/
inductive LoginFailure where
  /-- No variable names the user, and no user has the number of the process. -/
  | unknownNumber (uid : Int)
  /-- No variable names the user, and the host has no user database. -/
  | noDatabase
  | system (e : SystemError)
  deriving DecidableEq

/-- The failure of the step that asked. -/
def LoginFailure.fault : LoginFailure → Fault
  | .unknownNumber uid => .failed (Text.quoted ("getpwuid(): uid not found: " ++ toString uid))
  | .noDatabase => .failed "No module named 'pwd'"
  | .system e => .system e

theorem LoginFailure.fault_ne_refused (f : LoginFailure) (r : Refusal) : f.fault ≠ .refused r := by
  intro hrefused
  cases f <;> cases hrefused

/-- Why a text cannot be put on the output. -/
inductive OutputFailure where
  /-- A character of the text cannot be written, or nothing any more, with what is said of that. -/
  | unwritable (message : String)
  | system (e : SystemError)
  deriving DecidableEq

/-- The failure of the step that printed. -/
def OutputFailure.fault : OutputFailure → Fault
  | .unwritable message => .badValue message
  | .system e => .system e

end Provisioning
