/-
# `Provisioning.Directory.Rights` — rights on a directory

A restricted account is granted one of two sets of rights on a directory.
`mask` is how the access list of a directory writes them; both masks make the
entry pass on to what the directory holds.
-/
import Provisioning.Text.Quoted

namespace Provisioning

/-- The rights a restricted account may be granted on a directory. -/
inductive AccessRights where
  | readWriteCreate
  | fullControl
  deriving DecidableEq, Repr

namespace AccessRights

/-- Both rights, in order of declaration. -/
def all : List AccessRights := [.readWriteCreate, .fullControl]

/-- The name of the rights. -/
protected def toString : AccessRights → String
  | .readWriteCreate => "ReadWriteCreate"
  | .fullControl => "FullControl"

instance : ToString AccessRights := ⟨AccessRights.toString⟩

/-- The rights of a name. -/
def ofString? (s : String) : Option AccessRights := all.find? fun r => r.toString == s

/-- The permission mask that stands for the rights in an access list. -/
def mask : AccessRights → String
  | .readWriteCreate => "(OI)(CI)(RX,W)"
  | .fullControl => "(OI)(CI)(F)"

/-- The long name. -/
def member : AccessRights → String
  | .readWriteCreate => "READ_WRITE_CREATE"
  | .fullControl => "FULL_CONTROL"

/-- The rights, shown as a value. -/
def inspect (r : AccessRights) : String :=
  "<AccessRights." ++ r.member ++ ": " ++ Text.quoted r.toString ++ ">"

/-- Different rights have different masks. -/
theorem mask_injective : ∀ r s : AccessRights, r.mask = s.mask → r = s := by
  intro r s h
  cases r <;> cases s <;> first | rfl | exact absurd h (by decide)

end AccessRights

end Provisioning
