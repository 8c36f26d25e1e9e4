/-
# `Provisioning.Proofs.Windows.Validate` — validation accepts what is acceptable

On windows, with the stores in memory, validation returns exactly when the
request is acceptable (`Accepted`), and changes nothing.
-/
import Provisioning.Proofs.Windows.Stages

namespace Provisioning

open AccessControl (Reachable)

namespace Orchestrator

open Run

variable {o : Orchestrator} {request : Request} {S : Stores}

theorem gives_missingDirectories {paths : List String} (h : ∀ path ∈ paths, Reachable S.tree path) :
    Gives Host.stores (missingDirectories paths) S [] S := by
  induction paths with
  | nil => exact gives_pure _ _
  | cons path rest ih =>
      exact (AccessControl.gives_pathExists (h path List.mem_cons_self)).bind
        ((ih fun p hp => h p (List.mem_cons_of_mem _ hp)).bind (gives_pure _ _))

/-- Looking for a path changes nothing, and what is found can be looked at. -/
theorem of_pathExists {path : String} {h h' : Host} {found : Bool}
    (hexists : pathExists (Path.ofString path) h = .ok found h') :
    h' = h ∧ (found = true → Reachable h.tree path) := by
  obtain ⟨entry, h₁, hentry, hreturn⟩ := bind_apply_eq_ok_iff.1 hexists
  cases hreturn
  unfold entryAt at hentry
  cases hstat : h.tree.stat (Path.ofString path) with
  | ok n =>
      rw [hstat] at hentry
      cases hentry
      exact ⟨rfl, fun _ => ⟨n, hstat⟩⟩
  | error e =>
      rw [hstat] at hentry
      dsimp only at hentry
      split at hentry
      · cases hentry
        exact ⟨rfl, fun h => nomatch h⟩
      · exact nomatch hentry

theorem reachable_of_missingDirectories {paths : List String} {h h' : Host}
    (hnone : missingDirectories paths h = .ok [] h') :
    h' = h ∧ ∀ path ∈ paths, Reachable h.tree path := by
  induction paths generalizing h' with
  | nil =>
      cases hnone
      exact ⟨rfl, fun path hmem => nomatch hmem⟩
  | cons path rest ih =>
      obtain ⟨found, h₁, hfirst, hmore⟩ := bind_apply_eq_ok_iff.1 hnone
      obtain ⟨others, h₂, hrest, hreturn⟩ := bind_apply_eq_ok_iff.1 hmore
      obtain ⟨rfl, hreach⟩ := of_pathExists hfirst
      cases found with
      | false => exact nomatch hreturn
      | true =>
          cases hreturn
          obtain ⟨rfl, hall⟩ := ih hrest
          exact ⟨rfl, List.forall_mem_cons.2 ⟨hreach rfl, hall⟩⟩

/-- Checking a runner finds nothing wrong when the request is acceptable. -/
theorem gives_validateRunner (accepted : Accepted request S) :
    Gives Host.stores ((Capability.windows .table .table .table).validate request) S () S := by
  unfold Capability.validate
  dsimp only
  cases hrunner : given request.runner with
  | none => exact gives_pure _ _
  | some runner =>
      dsimp only
      cases hsame : sameAccount (some runner) request.createUser with
      | true => exact Gives.ite_pos rfl (gives_pure _ _)
      | false =>
          have hne : runner ≠ "" := (given_eq_some_iff.1 hrunner).2
          obtain ⟨i, -, -, hresolve⟩ := IdentityStore.gives_resolve (some runner) hne
            fun n hn => Option.some.inj hn ▸ accepted.runner runner hrunner hsame
          exact Gives.ite_neg Bool.false_ne_true (hresolve.bind (gives_pure _ _))

theorem gives_validate (htables : o.OnTables) (accepted : Accepted request S) :
    Gives Host.stores (o.validate request) S () S := by
  have hrunner : Gives Host.stores (o.capability.validate request) S () S := by
    rw [htables]
    exact gives_validateRunner accepted
  refine (gives_ofExcept accepted.options).bind
    ((gives_missingDirectories accepted.paths).bind (Gives.ite_neg (by simp) ?_))
  dsimp only
  cases huser : given request.user with
  | none => exact hrunner
  | some user =>
      have hne : user ≠ "" := (given_eq_some_iff.1 huser).2
      obtain ⟨i, -, -, hresolve⟩ := IdentityStore.gives_resolve (some user) hne
        fun n hn => Option.some.inj hn ▸ accepted.user user huser
      have hresolve' : Gives Host.stores (o.capability.identities.resolve (some user)) S i S := by
        rw [htables]
        exact hresolve
      exact hresolve'.bind hrunner

/-- A runner who is not about to be created passes the check only if the account is there. -/
theorem has_of_validateRunner {h h' : Host}
    (hvalidate : (Capability.windows .table .table .table).validate request h = .ok () h')
    {name : String} (hname : given request.runner = some name)
    (hsame : sameAccount (some name) request.createUser = false) : h.accounts.has name = true := by
  unfold Capability.validate at hvalidate
  dsimp only at hvalidate
  rw [hname] at hvalidate
  dsimp only at hvalidate
  rw [hsame] at hvalidate
  obtain ⟨i, h₁, hresolve, -⟩ := bind_apply_eq_ok_iff.1 hvalidate
  exact IdentityStore.has_of_resolve hresolve

/-- Validation accepts nothing else. -/
theorem accepted_of_validate (htables : o.OnTables) {h h' : Host}
    (hvalidate : o.validate request h = .ok () h') : Accepted request h.stores := by
  obtain ⟨_, h₀, hoptions, hpaths⟩ := bind_apply_eq_ok_iff.1 hvalidate
  obtain ⟨missing, h₁, hmissing, hnames⟩ := bind_apply_eq_ok_iff.1 hpaths
  cases hcheck : checkOptions request with
  | error e =>
      rw [hcheck] at hoptions
      exact nomatch hoptions
  | ok u =>
      rw [hcheck] at hoptions
      cases hoptions
      dsimp only at hnames
      split at hnames
      · obtain ⟨_, _, hrefused, -⟩ := bind_apply_eq_ok_iff.1 hnames
        exact nomatch hrefused
      · rename_i hnone
        have hnil : missing = [] := by simpa using hnone
        subst hnil
        obtain ⟨rfl, hreach⟩ := reachable_of_missingDirectories hmissing
        rw [htables] at hnames
        cases huser : given request.user with
        | none =>
            rw [huser] at hnames
            refine ⟨hcheck, hreach, fun name hname => ?_, fun _ => has_of_validateRunner hnames⟩
            rw [huser] at hname
            exact nomatch hname
        | some user =>
            rw [huser] at hnames
            obtain ⟨i, h₂, hresolve, hcapability⟩ := bind_apply_eq_ok_iff.1 hnames
            have hsame : h₂.stores = h₁.stores :=
              ((IdentityStore.looked_resolve .table (some user)).of_ok hresolve).stores_eq trivial
            refine ⟨hcheck, hreach, ?_, ?_⟩
            · intro name hname
              rw [huser] at hname
              cases hname
              exact IdentityStore.has_of_resolve hresolve
            · intro name hname hnot
              rw [← hsame]
              exact has_of_validateRunner hcapability hname hnot

end Orchestrator

end Provisioning
