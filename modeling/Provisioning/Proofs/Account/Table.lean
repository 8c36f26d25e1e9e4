/-
# `Provisioning.Proofs.Account.Table` — accounts kept in memory, step by step

What the steps on accounts make of the table kept in memory.  The only change
is `AccountTable.withAccount`: the account of a name, created if it is new.
It is made once for all: done again it does nothing, and every account that
was there stays.

    resolve           the account of a name, or the operator's own
    resolveOrCreate   the account of a name, created if it is new
    requireExisting   an account that is there
-/
import Provisioning.Account.Resolver
import Provisioning.Proofs.Host.Outcome
import Provisioning.Proofs.Text.Case

namespace Provisioning

namespace AccountTable

/-! ## The table -/

/-- The table with an account of a name, created with the password if it is new. -/
def withAccount (t : AccountTable) (name : String) (credential : Credential) : AccountTable :=
  if t.has name then t
  else { t with users := t.users.put name (some credential), created := t.created ++ [name] }

variable {t : AccountTable} {name other : String} {credential : Credential}

theorem withAccount_of_has (h : t.has name = true) (credential : Credential) :
    t.withAccount name credential = t := if_pos h

theorem withAccount_of_new (h : t.has name = false) (credential : Credential) :
    t.withAccount name credential =
      { t with users := t.users.put name (some credential), created := t.created ++ [name] } :=
  if_neg (by simp [h])

theorem contains_of_new (h : t.has name = false) : t.users.contains name = false := by
  cases hkey : t.users.contains name with
  | false => rfl
  | true =>
      have hhas : t.has name = true :=
        (has_iff t name).2 ⟨name, (Table.mem_keys_iff _ _).2 hkey, rfl⟩
      rw [h] at hhas
      exact nomatch hhas

theorem create_of_new (h : t.has name = false) (credential : Credential) :
    t.create name credential = .ok (t.withAccount name credential) := by
  simp [create, withAccount, h]

/-- Whether an account exists does not depend on the case of its name. -/
theorem has_congr (h : Text.lower name = Text.lower other) : t.has name = t.has other := by
  unfold has
  rw [h]

theorem has_withAccount (t : AccountTable) (name other : String) (credential : Credential) :
    (t.withAccount name credential).has other =
      (t.has other || Text.lower name == Text.lower other) := by
  cases hnew : t.has name with
  | true =>
      rw [withAccount_of_has hnew]
      by_cases hsame : Text.lower name = Text.lower other
      · rw [← has_congr hsame, hnew]
        rfl
      · simp [hsame]
  | false =>
      rw [withAccount_of_new hnew]
      simp [has, Table.keys_put, contains_of_new hnew]

theorem has_withAccount_self (t : AccountTable) (name : String) (credential : Credential) :
    (t.withAccount name credential).has name = true := by simp [has_withAccount]

theorem has_withAccount_of_has (h : t.has other = true) (name : String) (credential : Credential) :
    (t.withAccount name credential).has other = true := by simp [has_withAccount, h]

/-- An account is new in the table exactly if that of the name was not there before. -/
theorem exists_new_withAccount (t : AccountTable) (name : String) (credential : Credential) :
    (∃ other, (t.withAccount name credential).has other = true ∧ t.has other = false) ↔
      t.has name = false := by
  constructor
  · rintro ⟨other, hafter, hbefore⟩
    have hsame : Text.lower name = Text.lower other := by
      simpa [has_withAccount, hbefore] using hafter
    rw [has_congr hsame, hbefore]
  · exact fun hnew => ⟨name, has_withAccount_self t name credential, hnew⟩

/-- The account of the empty name comes with no other. -/
theorem has_empty_withAccount (hne : name ≠ "") (t : AccountTable) (credential : Credential) :
    (t.withAccount name credential).has "" = t.has "" := by
  have hlower : Text.lower name ≠ Text.lower "" := fun h =>
    hne (Text.lower_eq_empty_iff.1 (h.trans (Text.lower_eq_empty_iff.2 rfl)))
  simp [has_withAccount, hlower]

theorem withAccount_withAccount (t : AccountTable) (name : String) (credential : Credential) :
    (t.withAccount name credential).withAccount name credential = t.withAccount name credential :=
  withAccount_of_has (has_withAccount_self t name credential) credential

@[simp] theorem sessionUser_withAccount (t : AccountTable) (name : String)
    (credential : Credential) : (t.withAccount name credential).sessionUser = t.sessionUser := by
  unfold withAccount
  split <;> rfl

theorem withAccount_ne (h : t.has name = false) (credential : Credential) :
    t.withAccount name credential ≠ t := by
  intro heq
  have hcreated := congrArg created heq
  simp [withAccount, h] at hcreated

/-- The operator's own account is in every table of named accounts. -/
theorem has_sessionUser_ofNames (names : List String) (sessionUser : String) :
    (ofNames names sessionUser).has sessionUser = true := by
  refine (has_iff _ _).2 ⟨sessionUser, (Table.mem_keys_iff _ _).2 ?_, rfl⟩
  unfold ofNames
  dsimp only
  split
  · assumption
  · rw [Table.get?_put_self]
    rfl

end AccountTable

/-! ## The steps -/

namespace IdentityStore

open Run

variable {S : Stores} {P : Fault → Prop}

theorem gives_exists? (S : Stores) (name : String) :
    Gives Host.stores (exists? .table name) S (S.accounts.has name) S := by
  refine gives_get_bind fun h hS => ?_
  subst hS
  exact gives_pure _ _

theorem gives_make? {name : String} (hne : name ≠ "") (present : Bool) (source : IdentitySource)
    (credential : Option Credential) :
    Gives Host.stores (Run.ofExcept (Identity.make? name present source credential)) S
      { name, present, source, credential, named := hne } S :=
  gives_ofExcept (Identity.make?_of_ne hne present source credential)

theorem fails_make?_empty (present : Bool) (source : IdentitySource)
    (credential : Option Credential) :
    Fails Host.stores (Run.ofExcept (Identity.make? "" present source credential)) S
      (· = .invalid "Identity" [.inField "name" .stringEmpty]) S := fails_ofExcept rfl

/-- The name of the account that is resolved. -/
def resolvedName (t : AccountTable) (name : Option String) : String := name.getD t.sessionUser

theorem gives_resolve (name : Option String) (hne : resolvedName S.accounts name ≠ "")
    (hhas : ∀ n, name = some n → S.accounts.has n = true) :
    ∃ i : Identity, i.name = resolvedName S.accounts name ∧ i.present = true ∧
      Gives Host.stores (resolve .table name) S i S := by
  cases name with
  | none =>
      refine ⟨⟨S.accounts.sessionUser, true, .session, none, hne⟩, rfl, rfl, ?_⟩
      have hsession : Gives Host.stores (sessionUser .table) S S.accounts.sessionUser S :=
        gives_get_bind fun h hS => hS ▸ gives_pure _ _
      exact hsession.bind ((gives_log _ _ _).bind (gives_make? hne true .session none))
  | some n =>
      refine ⟨⟨n, true, .explicit, none, hne⟩, rfl, rfl, (gives_exists? S n).bind ?_⟩
      exact Gives.ite_pos (hhas n rfl) (gives_make? hne true .explicit none)

theorem fails_resolve_of_new {name : String} (hnew : S.accounts.has name = false) :
    Fails Host.stores (resolve .table (some name)) S (· = unknownAccount name) S := by
  refine (gives_exists? S name).bind_fails (Fails.ite_neg ?_ (fails_throw_self _ S))
  simp [hnew]

/-- The empty name cannot be resolved even where an account has it. -/
theorem fails_resolve_of_empty {name : Option String}
    (hempty : resolvedName S.accounts name = "")
    (hhas : ∀ n, name = some n → S.accounts.has n = true) :
    Fails Host.stores (resolve .table name) S
      (· = .invalid "Identity" [.inField "name" .stringEmpty]) S := by
  cases name with
  | none =>
      have hsession : Gives Host.stores (sessionUser .table) S "" S := by
        refine gives_get_bind fun h hS => ?_
        subst hS
        have hname : h.accounts.sessionUser = "" := hempty
        rw [hname]
        exact gives_pure _ _
      exact hsession.bind_fails
        ((gives_log _ _ _).bind_fails (fails_make?_empty true .session none))
  | some n =>
      have hn : n = "" := hempty
      subst hn
      exact (gives_exists? S "").bind_fails
        (Fails.ite_pos (hhas "" rfl) (fails_make?_empty true .explicit none))

theorem has_of_resolve {name : String} {h h' : Host} {i : Identity}
    (hresolve : resolve .table (some name) h = .ok i h') : h.accounts.has name = true := by
  cases hnew : h.accounts.has name with
  | true => rfl
  | false => exact absurd hresolve ((fails_resolve_of_new (S := h.stores) hnew).ne_ok rfl)

theorem gives_requireExisting {i : Identity} (hpresent : i.present = true)
    (hhas : S.accounts.has i.name = true) :
    Gives Host.stores (requireExisting .table i) S i S := by
  refine Gives.ite_neg (by simp [hpresent]) ((gives_exists? S i.name).bind ?_)
  exact Gives.ite_pos hhas (gives_pure i S)

/-- An account of the table is let through on the very host on which it is asked about. -/
theorem requireExisting_of_has {i : Identity} {h : Host} (hpresent : i.present = true)
    (hhas : h.accounts.has i.name = true) : requireExisting .table i h = .ok i h := by
  rw [requireExisting, if_neg (by simp [hpresent])]
  change (if h.accounts.has i.name = true then pure i else throw _ : Run Identity) h = .ok i h
  rw [if_pos hhas]
  rfl

theorem fails_requireExisting {i : Identity} (hnew : S.accounts.has i.name = false) :
    Fails Host.stores (requireExisting .table i) S (· = unknownAccount i.name) S := by
  cases hpresent : i.present with
  | false => exact Fails.ite_pos (by simp [hpresent]) (fails_throw_self _ S)
  | true =>
      refine Fails.ite_neg (by simp [hpresent]) ((gives_exists? S i.name).bind_fails ?_)
      exact Fails.ite_neg (by simp [hnew]) (fails_throw_self _ S)

/-- The account of a name is there afterwards, and it was created exactly if it was new. -/
theorem gives_resolveOrCreate {name : String} {credential : Credential} (hne : name ≠ "")
    (hgiven : credential.isGiven = true) :
    ∃ i : Identity, i.name = name ∧ i.present = true ∧
      (i.source == .created) = !S.accounts.has name ∧
      Gives Host.stores (resolveOrCreate .table (some name) (some credential)) S i
        { S with accounts := S.accounts.withAccount name credential } := by
  have hfilter : (some credential).filter Credential.isGiven = some credential := by simp [hgiven]
  unfold resolveOrCreate
  rw [hfilter]
  dsimp only
  rw [given_some_of_ne hne]
  dsimp only
  cases hnew : S.accounts.has name with
  | true =>
      refine ⟨⟨name, true, .explicit, none, hne⟩, rfl, rfl, rfl,
        (gives_exists? S name).bind (Gives.ite_pos hnew ?_)⟩
      rw [AccountTable.withAccount_of_has hnew]
      exact (gives_log _ _ _).bind (gives_make? hne true .explicit none)
  | false =>
      refine ⟨⟨name, true, .created, some credential, hne⟩, rfl, rfl, rfl,
        (gives_exists? S name).bind (Gives.ite_neg (by simp [hnew]) ?_)⟩
      have hcreate : Gives Host.stores (create .table name credential) S ()
          { S with accounts := S.accounts.withAccount name credential } := by
        refine (gives_note _).bind (gives_get_bind fun h hS => ?_)
        subst hS
        refine (gives_ofExcept (AccountTable.create_of_new hnew credential)).bind ?_
        exact gives_modify fun h' hS' => by
          simp only [Host.stores, Stores.mk.injEq] at hS' ⊢
          simp [hS']
      exact (gives_log _ _ _).bind (hcreate.bind (gives_make? hne true .created _))

end IdentityStore

end Provisioning
