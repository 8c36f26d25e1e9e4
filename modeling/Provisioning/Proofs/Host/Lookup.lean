/-
# `Provisioning.Proofs.Host.Lookup` — checks that change nothing

Before a run is confirmed it looks accounts and directories up.  On a host
that was only looked at, a few lines more are in the journal, none of them a
question or a change, and the file tree may be another one, if the account
management program changed it when it was asked about an account.  Everything
else is as it was (`Host.Looked`), and so is the file tree as long as that
program only looks (`IdentityStore.LooksOnly`).

**Stated here.**  Validating a request only looks, on every platform and with
every backend, and so does describing its plan.
-/
import Provisioning.Orchestrator
import Provisioning.Proofs.Host.Growth

namespace Provisioning

open Run

/-- Asking about an account leaves the file tree alone; only a program could do otherwise. -/
def IdentityStore.LooksOnly (store : IdentityStore) (h : Host) : Prop :=
  match store with
  | .netUser executable limit =>
    ∀ earlier name tree,
      (h.programs earlier ⟨[executable, "user", name], some limit⟩ tree).2 = tree
  | _ => True

/-- A store that only looks does so wherever the programs are the same. -/
theorem IdentityStore.LooksOnly.of_programs {store : IdentityStore} {h h' : Host}
    (hlooks : store.LooksOnly h) (hsame : h'.programs = h.programs) : store.LooksOnly h' := by
  cases store with
  | netUser executable limit =>
      intro earlier name tree
      rw [hsame]
      exact hlooks earlier name tree
  | _ => trivial

/-- `h'` is `h` after something was looked up on it. -/
def Host.Looked (store : IdentityStore) (h h' : Host) : Prop :=
  ∃ (es : Journal) (t : Tree), h' = { h with journal := h.journal ++ es, tree := t } ∧
    es.prompts = [] ∧ es.changes = [] ∧ (store.LooksOnly h → t = h.tree)

namespace Host.Looked

variable {store : IdentityStore} {h h' : Host}

instance : IsPreorder Host (Host.Looked store) where
  refl h := ⟨[], h.tree, by simp, rfl, rfl, fun _ => rfl⟩
  trans := by
    rintro h h' h'' ⟨es, t, rfl, hp, hc, ht⟩ ⟨fs, u, rfl, hp', hc', hu⟩
    refine ⟨es ++ fs, u, by simp only [List.append_assoc], by simp [hp, hp'], by simp [hc, hc'], ?_⟩
    intro hlooks
    exact (hu hlooks).trans (ht hlooks)

theorem cgroups_eq (hl : h.Looked store h') : h'.cgroups = h.cgroups := by
  obtain ⟨es, t, rfl, -, -, -⟩ := hl
  rfl

theorem access_eq (hl : h.Looked store h') : h'.access = h.access := by
  obtain ⟨es, t, rfl, -, -, -⟩ := hl
  rfl

theorem programs_eq (hl : h.Looked store h') : h'.programs = h.programs := by
  obtain ⟨es, t, rfl, -, -, -⟩ := hl
  rfl

theorem tree_eq (hl : h.Looked store h') (hlooks : store.LooksOnly h) : h'.tree = h.tree := by
  obtain ⟨es, t, rfl, -, -, ht⟩ := hl
  exact ht hlooks

theorem grows (hl : h.Looked store h') (C : Change → Prop) : h.Grows C h' := by
  obtain ⟨es, t, rfl, hp, hc, -⟩ := hl
  exact ⟨es, rfl, hp, by simp [hc]⟩

end Host.Looked

namespace Run

variable {store : IdentityStore}

theorem looked_log (level : LogLevel) (source : LogSource) (message : String) :
    Leads (Host.Looked store) (log level source message) := fun h =>
  ⟨[.logged { level, source, message }], h.tree, rfl, rfl, rfl, fun _ => rfl⟩

end Run

/-! ## Accounts -/

namespace IdentityStore

/-- The program that is asked about an account is the only thing that could change the file tree. -/
theorem looked_askProgram (executable name : String) (limit : Number) :
    Leads (Host.Looked (.netUser executable limit))
      (Run.command [executable, "user", name] (some limit) []) := by
  refine Leads.bind (looked_log _ _ _) fun _ =>
    Leads.bind ?_ fun _ => Leads.bind (looked_log _ _ _) fun _ => leads_pure _
  intro h
  have hend : ∀ status, Host.Looked (.netUser executable limit) h
      { h with
        tree := (h.programs h.journal.invocations ⟨[executable, "user", name], some limit⟩ h.tree).2
        journal := h.journal ++ [.started ⟨[executable, "user", name], some limit⟩ status] } :=
    fun status => ⟨_, _, rfl, rfl, rfl, fun hlooks => hlooks _ name h.tree⟩
  unfold hostAfter startProgram
  dsimp only
  cases (h.programs h.journal.invocations ⟨[executable, "user", name], some limit⟩ h.tree).1 with
  | ok out => exact hend (some out.status)
  | error e => exact hend none

theorem looked_exists? (store : IdentityStore) (name : String) :
    Leads (Host.Looked store) (store.exists? name) := by
  cases store with
  | table => exact leads_get.bind fun _ => leads_pure _
  | netUser executable limit =>
      exact (looked_askProgram executable name limit).bind fun _ => leads_pure _
  | posix => exact (leads_uidOf? name).bind fun _ => leads_pure _

theorem looked_resolve (store : IdentityStore) (name : Option String) :
    Leads (Host.Looked store) (store.resolve name) := by
  cases name with
  | none =>
      exact (leads_sessionUser store).bind fun _ =>
        Leads.bind (looked_log _ _ _) fun _ => leads_ofExcept _
  | some name =>
      exact (looked_exists? store name).bind fun _ => Leads.ite (leads_ofExcept _) (leads_throw _)

/-- No account has an empty name, whatever a database says of it. -/
theorem resolve_empty_ne_ok (store : IdentityStore) {h h' : Host} {i : Identity} :
    store.resolve (some "") h ≠ .ok i h' := by
  intro hresolve
  obtain ⟨found, h₁, -, hfound⟩ := bind_apply_eq_ok_iff.1 hresolve
  cases found with
  | true => exact nomatch hfound
  | false => exact nomatch hfound

end IdentityStore

/-! ## Requests -/

namespace Capability

theorem looked_validate (c : Capability) (request : Request) :
    Leads (Host.Looked c.identities) (c.validate request) := by
  cases c with
  | windows identities policy access =>
      unfold validate
      dsimp only
      cases given request.runner with
      | none => exact leads_pure _
      | some runner =>
          exact Leads.ite (leads_pure _)
            ((IdentityStore.looked_resolve identities _).bind fun _ => leads_pure _)
  | linux identities filesystem config =>
      have hresolve : Leads (Host.Looked identities) (do
          let _ ← identities.resolve request.cgroupOwner
          return ()) := (IdentityStore.looked_resolve identities _).bind fun _ => leads_pure _
      exact Leads.ite (Leads.bind (leads_refuse _ _ _) fun _ => hresolve) hresolve

theorem looked_describe (c : Capability) (request : Request) :
    Leads (Host.Looked c.identities) (c.describe request) := by
  cases c with
  | windows identities policy access => exact leads_pure _
  | linux identities filesystem config =>
      have hrest : ∀ owner : String, Leads (Host.Looked identities) (do
          let specs ← Run.ofExcept (CgroupSpec.forGroup (groupOf config request))
          return specs.map fun s => groupLine owner (s.path config.cgroupRoot)) :=
        fun owner => (leads_ofExcept _).bind fun _ => leads_pure _
      unfold describe
      dsimp only
      cases given request.cgroupOwner with
      | some owner => exact hrest owner
      | none =>
          exact (IdentityStore.looked_resolve identities none).bind fun session =>
            hrest session.name

end Capability

namespace Orchestrator

theorem looked_missingDirectories {store : IdentityStore} :
    ∀ paths : List String, Leads (Host.Looked store) (missingDirectories paths)
  | [] => leads_pure _
  | _ :: rest =>
      (leads_pathExists _).bind fun _ => (looked_missingDirectories rest).bind fun _ => leads_pure _

theorem looked_validate (o : Orchestrator) (request : Request) :
    Leads (Host.Looked o.capability.identities) (o.validate request) := by
  have hcapability := Capability.looked_validate o.capability request
  unfold validate
  refine (leads_ofExcept _).bind fun _ => (looked_missingDirectories _).bind fun missing => ?_
  cases given request.user with
  | none => exact Leads.ite (Leads.bind (leads_refuse _ _ _) fun _ => hcapability) hcapability
  | some user =>
      have huser := (IdentityStore.looked_resolve o.capability.identities (some user)).bind
        fun _ => hcapability
      exact Leads.ite (Leads.bind (leads_refuse _ _ _) fun _ => huser) huser

/-- A request is acceptable only if it is so to the platform. -/
theorem capability_validate_of_validate {o : Orchestrator} {request : Request} {h h' : Host}
    (hvalidate : o.validate request h = .ok () h') :
    ∃ h₁, o.capability.validate request h₁ = .ok () h' := by
  obtain ⟨_, _, -, hpaths⟩ := bind_apply_eq_ok_iff.1 hvalidate
  obtain ⟨missing, h₁, -, hmissing⟩ := bind_apply_eq_ok_iff.1 hpaths
  dsimp only at hmissing
  split at hmissing
  · obtain ⟨_, _, hrefused, -⟩ := bind_apply_eq_ok_iff.1 hmissing
    exact nomatch hrefused
  · cases huser : given request.user with
    | none =>
        rw [huser] at hmissing
        exact ⟨h₁, hmissing⟩
    | some user =>
        rw [huser] at hmissing
        obtain ⟨_, h₂, -, hcapability⟩ := bind_apply_eq_ok_iff.1 hmissing
        exact ⟨h₂, hcapability⟩

end Orchestrator

end Provisioning
