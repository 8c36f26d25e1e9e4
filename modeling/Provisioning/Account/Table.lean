/-
# `Provisioning.Account.Table` — accounts kept in memory

An account database as a value: the accounts with the passwords they were
created with, the operator's own account, and the accounts created so far.
Account names are compared without regard to case, in lower case.
-/
import Provisioning.Account.Credential
import Provisioning.Fault.Basic
import Provisioning.Table
import Provisioning.Text.Case

namespace Provisioning

/-- An account database. -/
structure AccountTable where
  users : Table String (Option Credential) := {}
  sessionUser : String := "operator"
  /-- The accounts created, in order. -/
  created : List String := []

namespace AccountTable

/-- The database of named accounts; the operator's own account is added when it is not among them. -/
def ofNames (names : List String) (sessionUser : String) : AccountTable where
  users :=
    let known := Table.ofRows (names.map fun n => (n, (none : Option Credential)))
    if known.contains sessionUser then known else known.put sessionUser none
  sessionUser

/-- An account of that name exists, whatever the case of its letters. -/
def has (t : AccountTable) (name : String) : Bool :=
  t.users.keys.any fun k => Text.lower k == Text.lower name

/-- The database with a new account. -/
def create (t : AccountTable) (name : String) (credential : Credential) :
    Except Fault AccountTable :=
  if t.has name then .error (.badValue ("Account already exists: " ++ name))
  else .ok { t with users := t.users.put name (some credential), created := t.created ++ [name] }

/-- The password an account was created with. -/
def credentialOf (t : AccountTable) (name : String) : Option Credential :=
  (t.users.get? name).join

theorem has_iff (t : AccountTable) (name : String) :
    t.has name = true ↔ ∃ k ∈ t.users.keys, Text.lower k = Text.lower name := by
  simp [has]

end AccountTable

end Provisioning
