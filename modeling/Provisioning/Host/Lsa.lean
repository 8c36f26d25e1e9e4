/-
# `Provisioning.Host.Lsa` — the security service of a host

The calls by which account rights are read and extended, and how a host
answers them.  An answer depends on how many calls were made before, so a
service may answer each time differently; statuses and errors are numbers of
the service.  The names of rights go to it and come from it as counted texts.
-/
import Provisioning.Table
import Provisioning.Text.Pieces
import Provisioning.Text.Wide

namespace Provisioning

/-- The rights of every account, by the names that the service has for them. -/
abbrev LsaAccounts := Table String (List String)

/-- A call of the service.  A handle is named by the number of calls made before the one that opened
it. -/
inductive LsaCall where
  /-- How large the identifier of an account is. -/
  | lookupSize (name : String)
  /-- The identifier of an account. -/
  | lookupSid (name : String)
  | openPolicy (access : Nat)
  | enumerateRights (handle : Nat)
  | addRights (handle : Nat) (names : List String)
  | freeMemory
  | closePolicy (handle : Nat)
  /-- The system error that a status stands for. -/
  | statusToError (status : Int)
  deriving DecidableEq

/-- The hexadecimal text of a number. -/
def hexText (n : Nat) : String := "0x" ++ String.ofList (Nat.toDigits 16 n)

/-- The text of a call. -/
protected def LsaCall.toString : LsaCall → String
  | .lookupSize name => "LookupAccountNameW " ++ name ++ " size"
  | .lookupSid name => "LookupAccountNameW " ++ name ++ " sid"
  | .openPolicy access => "LsaOpenPolicy " ++ hexText access
  | .enumerateRights _ => "LsaEnumerateAccountRights"
  | .addRights _ names => "LsaAddAccountRights " ++ ",".intercalate names
  | .freeMemory => "LsaFreeMemory"
  | .closePolicy _ => "LsaClose"
  | .statusToError _ => "LsaNtStatusToWinError"

namespace Lsa

/-- The status of success. -/
def success : Int := 0

/-- The status of an account to which no right was ever given. -/
def nameNotFound : Int := 0xC0000034

/-- The error of a call without the rights for it. -/
def accessDenied : Int := 5

/-- The error that answers the question for a size. -/
def insufficientBuffer : Int := 122

/-- The error of a name without an account. -/
def noneMapped : Int := 1332

/-- How a call that ends in a status failed, if it did. -/
def failureOf (status : Int) : Option Int := if status = success then none else some status

/-- Access to create accounts. -/
def createAccount : Nat := 0x10

/-- Access to look names up. -/
def lookupNames : Nat := 0x800

end Lsa

/-- What a call comes back with: how it failed, if it did; its value; and the rights of all accounts
afterwards. -/
structure LsaAnswer (α : Type) where
  failure : Option Int
  value : α
  accounts : LsaAccounts

/-- How a service answers, given how many calls came before. -/
structure LsaService where
  /-- The error left by the question for a size. -/
  sizeError : Nat → LsaAccounts → String → Int
  /-- The error left by the look-up, if it fails. -/
  sidError : Nat → LsaAccounts → String → Option Int
  /-- The status of opening the policy with some access. -/
  openStatus : Nat → Nat → Int
  /-- The status of listing an account's rights, and the rights. -/
  listRights : Nat → LsaAccounts → String → Int × List CountedText
  /-- The status of adding rights to an account, and the rights of all afterwards. -/
  addRights : Nat → LsaAccounts → String → List CountedText → Int × LsaAccounts
  /-- The error that a status stands for. -/
  winError : Nat → Int → Int

namespace LsaService

/-- The texts as the service gives them. -/
def counted (rights : List String) : List CountedText :=
  rights.map fun r => .holding r (Text.units r).length

/-- The rights of all after some were added to an account, each once. -/
def withRights (accounts : LsaAccounts) (name : String) (rights : List String) : LsaAccounts :=
  let held := (accounts.get? name).getD []
  accounts.put name (held ++ rights.filter fun r => !held.contains r)

/-- A service that finds the accounts of its table by their exact names and fails at nothing else. -/
def plain : LsaService where
  sizeError _ accounts name :=
    if accounts.contains name then Lsa.insufficientBuffer else Lsa.noneMapped
  sidError _ _ _ := none
  openStatus _ _ := Lsa.success
  listRights _ accounts name :=
    match (accounts.get? name).getD [] with
    | [] => (Lsa.nameNotFound, [])
    | rights => (Lsa.success, counted rights)
  addRights _ accounts name rights :=
    (Lsa.success, withRights accounts name (rights.map CountedText.text))
  winError _ _ := 317

end LsaService

end Provisioning
