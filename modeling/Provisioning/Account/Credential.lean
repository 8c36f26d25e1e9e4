/-
# `Provisioning.Account.Credential` — a password

A password is compared and handed on, and never shown: every text made from a
credential is the same placeholder.  `expose` is the one way back to the
plaintext.
-/
namespace Provisioning

/-- An account password. -/
structure Credential where
  plaintext : String
  deriving DecidableEq

namespace Credential

/-- The plaintext, on explicit demand. -/
def expose (c : Credential) : String := c.plaintext

/-- The text of any credential. -/
protected def toString (_ : Credential) : String := "[REDACTED]"

/-- Any credential, shown as a value. -/
def inspect (_ : Credential) : String := "Credential([REDACTED])"

/-- Any credential under any format specification. -/
def format (_ : Credential) (_spec : String) : String := "[REDACTED]"

/-- A credential counts as given when it is not empty. -/
def isGiven (c : Credential) : Bool := c.plaintext != ""

instance : ToString Credential := ⟨Credential.toString⟩

end Credential

end Provisioning
