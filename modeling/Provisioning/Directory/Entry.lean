/-
# `Provisioning.Directory.Entry` — one access entry to apply

A grant says that an identity has given rights on a path.  The path is the
text of the request: the access list of the host is keyed by it.
-/
import Provisioning.Account.Identity
import Provisioning.Directory.Rights

namespace Provisioning

/-- An identity has rights on a path. -/
structure DirectoryGrant where
  identity : Identity
  path : String
  rights : AccessRights := .readWriteCreate
  deriving DecidableEq

namespace DirectoryGrant

/-- A grant, shown as a value. -/
def inspect (g : DirectoryGrant) : String :=
  Text.inspectRecord "DirectoryGrant"
    [("identity", g.identity.inspect), ("path", Text.quoted g.path), ("rights", g.rights.inspect)]

/-- A grant as a machine reads it. -/
def dump (g : DirectoryGrant) : Detail :=
  .object
    [("identity", g.identity.dump), ("path", .text g.path), ("rights", .text g.rights.toString)]

end DirectoryGrant

end Provisioning
