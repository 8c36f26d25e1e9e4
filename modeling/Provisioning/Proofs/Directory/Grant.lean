/-
# `Provisioning.Proofs.Directory.Grant` — one grant, stage by stage

A grant asks for the account, looks for the path, and settles the entry there.
How far it gets depends on the account database and on the file tree, and not
on the access lists, which are looked at in the last stage only:

    the account cannot be confirmed    fails as that did
    the path may not be looked at      fails with access denied
    nothing at the path                refused as not found
    anything else                      the entries are listed and settled
-/
import Provisioning.Directory.Grant
import Provisioning.Proofs.Host.Seen

namespace Provisioning.AccessControl

open Run

variable {access : AccessControl} {store : IdentityStore} {i i' : Identity} {rights : AccessRights}
  {h h₁ : Host} {tree : Tree} {path : String}

/-- Something can be looked at where a path points to. -/
def Reachable (tree : Tree) (path : String) : Prop :=
  ∃ n, Tree.stat tree (Path.ofString path) = .ok n

theorem reachable_iff :
    Reachable tree path ↔
      ¬ tree.Hidden (Path.ofString path) ∧ (tree.get? (Path.ofString path)).isSome = true := by
  rw [Reachable, Tree.stat, Tree.Hidden]
  cases tree.get? (Path.ofString path) with
  | none => simp
  | some n => cases hdenied : n.denies.stat <;> simp [hdenied]

/-- What a path with nothing at it is refused with. -/
def missing (path : String) : Refusal :=
  Refusal.because .pathNotFound ("Path does not exist: " ++ path) [("path", .text path)]

/-- The last stage: the entry of the account is set, unless it is right already. -/
def settle (access : AccessControl) (i : Identity) (path : String) (rights : AccessRights)
    (list : AccessList) : Run DirectoryGrant :=
  if list.get? i.name = some rights then do
    log .info .directories ("'" ++ i.name ++ "' already has " ++ rights.toString ++ " on " ++ path)
    return { identity := i, path, rights }
  else do
    log .info .directories
      ("Granting " ++ rights.toString ++ " on " ++ path ++ " to '" ++ i.name ++ "'")
    access.setEntry path i.name rights
    return { identity := i, path, rights }

theorem grant_of_hidden (hknown : store.requireExisting i h = .ok i' h₁)
    (hhidden : h₁.tree.Hidden (Path.ofString path)) :
    access.grant store i path rights h =
      .error (.system (.about SystemError.accessDenied (Path.ofString path).toString)) h₁ := by
  rw [grant, bind_apply_of_ok hknown]
  exact bind_apply_of_error (pathExists_of_hidden hhidden) _

theorem grant_of_absent (hknown : store.requireExisting i h = .ok i' h₁)
    (habsent : h₁.tree.get? (Path.ofString path) = none) :
    access.grant store i path rights h = .error (.refused (missing path)) h₁ := by
  have hseen : ¬ h₁.tree.Hidden (Path.ofString path) := by simp [Tree.Hidden, habsent]
  rw [grant, bind_apply_of_ok hknown, bind_apply_of_ok (pathExists_of_not_hidden hseen), habsent]
  rfl

theorem grant_of_reachable (hknown : store.requireExisting i h = .ok i' h₁)
    (hreach : Reachable h₁.tree path) :
    access.grant store i path rights h =
      (access.entries path >>= access.settle i path rights) h₁ := by
  obtain ⟨hseen, hthere⟩ := reachable_iff.1 hreach
  rw [grant, bind_apply_of_ok hknown, bind_apply_of_ok (pathExists_of_not_hidden hseen), hthere]
  rfl

/-- How far a grant gets, and what it comes to. -/
inductive GrantGets (access : AccessControl) (store : IdentityStore) (i : Identity) (path : String)
    (rights : AccessRights) (h : Host) : EStateM.Result Fault Host DirectoryGrant → Prop where
  | unconfirmed {e : Fault} {h₁ : Host} (hunknown : store.requireExisting i h = .error e h₁) :
      GrantGets access store i path rights h (.error e h₁)
  | hidden {i' : Identity} {h₁ : Host} (hknown : store.requireExisting i h = .ok i' h₁)
      (hhidden : h₁.tree.Hidden (Path.ofString path)) :
      GrantGets access store i path rights h
        (.error (.system (.about SystemError.accessDenied (Path.ofString path).toString)) h₁)
  | absent {i' : Identity} {h₁ : Host} (hknown : store.requireExisting i h = .ok i' h₁)
      (habsent : h₁.tree.get? (Path.ofString path) = none) :
      GrantGets access store i path rights h (.error (.refused (missing path)) h₁)
  | settled {i' : Identity} {h₁ : Host} (hknown : store.requireExisting i h = .ok i' h₁)
      (hreach : Reachable h₁.tree path) :
      GrantGets access store i path rights h
        ((access.entries path >>= access.settle i path rights) h₁)

theorem grantGets_grant (access : AccessControl) (store : IdentityStore) (i : Identity)
    (path : String) (rights : AccessRights) (h : Host) :
    GrantGets access store i path rights h (access.grant store i path rights h) := by
  cases hasked : store.requireExisting i h with
  | error e h₁ =>
      rw [grant, bind_apply_of_error hasked]
      exact .unconfirmed hasked
  | ok i' h₁ =>
      by_cases hhidden : h₁.tree.Hidden (Path.ofString path)
      · rw [grant_of_hidden hasked hhidden]
        exact .hidden hasked hhidden
      · cases hthere : h₁.tree.get? (Path.ofString path) with
        | none =>
            rw [grant_of_absent hasked hthere]
            exact .absent hasked hthere
        | some n =>
            have hreach : Reachable h₁.tree path := reachable_iff.2 ⟨hhidden, by rw [hthere]; rfl⟩
            rw [grant_of_reachable hasked hreach]
            exact .settled hasked hreach

end Provisioning.AccessControl
