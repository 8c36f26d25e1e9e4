/-
# `Provisioning.Fault.Cause` — what a refusal is made from

A refusal is often another failure in words for the operator: a program that
could not be started, a call of the system that was refused.  The refusal
keeps that failure as its cause, so whoever looks into it finds both.
-/
import Provisioning.Fault.System
import Provisioning.Number

namespace Provisioning

/-- The failure that a refusal was made from. -/
inductive Cause where
  /-- An error of the operating system. -/
  | system (e : SystemError)
  /-- An external program ran longer than its limit. -/
  | overran (args : List String) (limit : Option Number)
  deriving DecidableEq

/-- What is said of a program that ran longer than its limit. -/
def overrunText (args : List String) (limit : Option Number) : String :=
  "Command '" ++ Text.quotedList args ++ "' timed out after " ++
    (match limit with | none => "None" | some n => n.toString) ++ " seconds"

/-- The text of a cause. -/
def Cause.message : Cause → String
  | .system e => e.toString
  | .overran args limit => overrunText args limit

end Provisioning
