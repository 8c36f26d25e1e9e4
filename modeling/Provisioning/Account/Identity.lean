/-
# `Provisioning.Account.Identity` — the account a step works for

Every step that grants something receives the account as an `Identity`, and
none looks up "the current user" on its own.  An identity always has a name:
`Identity.make?` refuses the empty one.  Its credential is never part of what
is shown or dumped.
-/
import Provisioning.Account.Credential
import Provisioning.Fault.Basic
import Provisioning.Text.Inspect

namespace Provisioning

/-- How an identity came to be selected. -/
inductive IdentitySource where
  /-- The operator's own account. -/
  | session
  /-- Named in the request. -/
  | explicit
  /-- Created by this run. -/
  | created
  deriving DecidableEq, Repr

namespace IdentitySource

/-- Every source. -/
def all : List IdentitySource := [.session, .explicit, .created]

/-- The name of a source. -/
protected def toString : IdentitySource → String
  | .session => "session"
  | .explicit => "explicit"
  | .created => "created"

/-- The source of a name. -/
def ofString? (s : String) : Option IdentitySource := all.find? fun x => x.toString == s

/-- The long name. -/
def member : IdentitySource → String
  | .session => "SESSION"
  | .explicit => "EXPLICIT"
  | .created => "CREATED"

/-- A source, shown as a value. -/
def inspect (s : IdentitySource) : String :=
  "<IdentitySource." ++ s.member ++ ": " ++ Text.quoted s.toString ++ ">"

end IdentitySource

/-- A local account.  Nothing is granted to an identity that is not `present`. -/
structure Identity where
  name : String
  present : Bool := false
  source : IdentitySource := .explicit
  credential : Option Credential := none
  named : name ≠ ""
  deriving DecidableEq

namespace Identity

/-- The identity with the given fields; the name may not be empty. -/
def make? (name : String) (present : Bool) (source : IdentitySource)
    (credential : Option Credential) : Except Fault Identity :=
  if h : name = "" then .error (.invalid "Identity" [.inField "name" .stringEmpty])
  else .ok { name, present, source, credential, named := h }

theorem make?_of_ne {name : String} (h : name ≠ "") (present : Bool) (source : IdentitySource)
    (credential : Option Credential) :
    make? name present source credential = .ok { name, present, source, credential, named := h } :=
  dif_neg h

/-- An identity, shown as a value. -/
def inspect (i : Identity) : String :=
  Text.inspectRecord "Identity"
    [("name", Text.quoted i.name), ("exists", Text.inspectBool i.present),
      ("source", i.source.inspect)]

/-- An identity as a machine reads it. -/
def dump (i : Identity) : Detail :=
  .object
    [("name", .text i.name), ("exists", .bool i.present), ("source", .text i.source.toString)]

end Identity

end Provisioning
