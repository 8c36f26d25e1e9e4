/-
# `Provisioning.Fault.Basic` — every way a step can fail

Most failures are refusals, which a run reports with their code.  The others
come from below: the operating system, an external program that runs too long,
an interrupt, a record whose fields are wrong, a value that an operation
cannot use, or a value used as one of another sort.  Who may catch which is
decided where it is caught.
-/
import Provisioning.Fault.Issue
import Provisioning.Fault.Misuse
import Provisioning.Fault.Refusal
import Provisioning.Fault.System

namespace Provisioning

/-- A failure. -/
inductive Fault where
  /-- Reported to the operator under a code. -/
  | refused (r : Refusal)
  /-- From the operating system. -/
  | system (e : SystemError)
  /-- An external program ran longer than its limit. -/
  | timedOut (args : List String) (limit : Option Number)
  /-- The operator interrupted. -/
  | interrupted
  /-- The fields of a record are wrong. -/
  | invalid (model : String) (issues : List Issue)
  /-- A value that the operation cannot use. -/
  | badValue (message : String)
  /-- Any other failure of an operation. -/
  | failed (message : String)
  /-- The first of no items was wanted. -/
  | outOfRange
  /-- A value is used as one of another sort. -/
  | misused (m : Misuse)

namespace Fault

/-- The text of a failure. -/
def message : Fault → String
  | .refused r => r.message
  | .system e => e.toString
  | .timedOut args limit => overrunText args limit
  | .interrupted => ""
  | .invalid model _ => model
  | .badValue m => m
  | .failed m => m
  | .outOfRange => "list index out of range"
  | .misused m => m.message

/-- The refusal, if it is one. -/
def refusal? : Fault → Option Refusal
  | .refused r => some r
  | _ => none

/-- A refusal of a kind with a message and details. -/
def refuse (kind : RefusalKind) (message : String) (details : List (String × Detail)) : Fault :=
  .refused (Refusal.because kind message details)

/-- A refusal that was made from another failure. -/
def refuseFrom (cause : Cause) (kind : RefusalKind) (message : String)
    (details : List (String × Detail)) : Fault :=
  .refused { Refusal.because kind message details with cause := some cause }

end Fault

end Provisioning
