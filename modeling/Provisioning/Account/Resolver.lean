/-
# `Provisioning.Account.Resolver` — which account a run is for

`resolve` turns the account options of a request into an identity, creating
the account when it is asked to; `requireExisting` is the check that every
grant makes before it changes anything.  Creating is the only change made
here.

    create   name       existing   outcome
    yes      given      no         created, with the credential
    yes      given      yes        as it is, without a credential
    no       absent     —          the operator's own account
    no       present    yes        as it is
    no       present    no         unknown
-/
import Provisioning.Account.Identity
import Provisioning.Account.Store

namespace Provisioning

namespace IdentityStore

/-- The refusal of an account that does not exist. -/
def unknownAccount (name : String) : Fault :=
  .refuse .unknownIdentity ("No local account named '" ++ name ++ "'") [("name", .text name)]

/-- Create an account, or take it as it is when it exists. -/
def resolveOrCreate (store : IdentityStore) (name : Option String)
    (credential : Option Credential) : Run Identity := do
  match credential.filter Credential.isGiven with
  | none =>
    Run.refuse .missingCredential
      ("Cannot create account '" ++ name.getD "None" ++ "' without a password")
      [("name", .optional name)]
  | some password =>
    match given name with
    | none => Run.refuse .unknownIdentity "Account creation needs a name" []
    | some name =>
      if ← store.exists? name then
        Run.log .info .resolver ("Account '" ++ name ++ "' already exists; not re-creating it")
        Run.ofExcept (Identity.make? name true .explicit none)
      else
        Run.log .info .resolver ("Creating local account '" ++ name ++ "'")
        store.create name password
        Run.ofExcept (Identity.make? name true .created (some password))

/-- The account of a name, or the operator's own without one. -/
def resolve (store : IdentityStore) (name : Option String) : Run Identity := do
  match name with
  | none =>
    let session ← store.sessionUser
    Run.log .debug .resolver ("No account named; using session account '" ++ session ++ "'")
    Run.ofExcept (Identity.make? session true .session none)
  | some name =>
    if ← store.exists? name then Run.ofExcept (Identity.make? name true .explicit none)
    else throw (unknownAccount name)

/-- An identity that something may be granted to: it was resolved, and its account still exists. -/
def requireExisting (store : IdentityStore) (identity : Identity) : Run Identity := do
  if !identity.present then throw (unknownAccount identity.name)
  else if ← store.exists? identity.name then return identity
  else throw (unknownAccount identity.name)

end IdentityStore

end Provisioning
