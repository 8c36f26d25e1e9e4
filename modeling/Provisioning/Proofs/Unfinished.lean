/-
# `Provisioning.Proofs.Unfinished` — what the report of a failed run tells

The report is kept when a run fails, so that whoever reads it sees what had
been done.  Each part of it is written when the step that it is about has ended
in a value.

    account       one change, and it is told of
    privileges    one change, and it is told of
    directories   a change for each path, and all are told of once none was refused
    group         a change for each directory; kept in memory, all are refused or none

A step that makes one change fails without it, so a report that then says
nothing is right.  A batch of grants goes on after a refusal and fails at its
end, and what it has granted by then is left out.

**Stated here.**  The report of a run that failed tells exactly what was done of
the account, the privileges and the group, and nothing of the directories: it is
right about these exactly if none was granted (`failed_run_reports_iff`).
-/
import Provisioning.Proofs.Cgroup.Table
import Provisioning.Proofs.Directory.Granted
import Provisioning.Proofs.Privilege.Added

namespace Provisioning

open Run

/-! ## A report in step with the stores -/

namespace Progress

/-- The report says that an account was created exactly if one is there that was not on the host `h`. -/
def TellsAccounts (h : Host) (p : Progress) : Prop :=
  p.report.created = true ↔
    ∃ name, p.host.accounts.has name = true ∧ h.accounts.has name = false

/-- The report lists, in their order, the privileges that an account holds and did not hold on `h`. -/
def TellsPrivileges (h : Host) (p : Progress) : Prop :=
  ∃ gained : PrivilegeSet, p.report.privilegesGranted = gained.toList ∧
    ∀ q, q ∈ gained ↔ ∃ name, q ∈ p.host.rights.heldBy name ∧ q ∉ h.rights.heldBy name

/-- The report tells of the accounts and of the privileges. -/
structure InStep (h : Host) (p : Progress) : Prop where
  accounts : p.TellsAccounts h
  privileges : p.TellsPrivileges h

variable {h : Host} {p : Progress}

theorem tellsAccounts_of_same (haccounts : p.host.accounts = h.accounts)
    (hsilent : p.report.created = false) : p.TellsAccounts h := by
  rw [TellsAccounts, hsilent, haccounts]
  simp

theorem tellsPrivileges_of_same (hrights : p.host.rights = h.rights)
    (hsilent : p.report.privilegesGranted = []) : p.TellsPrivileges h :=
  ⟨{}, hsilent, fun q => by simp [hrights]⟩

end Progress

/-! ## Steps that have no part in it -/

namespace Step

variable {α β : Type} {act : Step α} {h : Host} {p : Progress}

/-- The step leaves the accounts and the privileges alone, and what the report says of them. -/
structure Aside (act : Step α) : Prop where
  accounts : Leads (SameBy Host.accounts) act
  rights : Leads (SameBy Host.rights) act
  created : Leaves Report.created act
  privileges : Leaves Report.privilegesGranted act

theorem tellsAccounts_after (hsame : Leads (SameBy Host.accounts) act)
    (hleaves : Leaves Report.created act) (htells : p.TellsAccounts h) :
    (act.progressAfter p).TellsAccounts h := by
  rw [Progress.TellsAccounts, hleaves p, show _ = _ from hsame p]
  exact htells

theorem Aside.inStep (haside : Aside act) (hstep : p.InStep h) : (act.progressAfter p).InStep h := by
  refine ⟨tellsAccounts_after haside.accounts haside.created hstep.accounts, ?_⟩
  rw [Progress.TellsPrivileges, haside.privileges p, show _ = _ from haside.rights p]
  exact hstep.privileges

theorem aside_ofRun {act : Run α} (haccounts : Run.Leads (SameBy Host.accounts) act)
    (hrights : Run.Leads (SameBy Host.rights) act) : Aside (ofRun act) :=
  ⟨leads_ofRun haccounts, leads_ofRun hrights, leaves_ofRun act, leaves_ofRun act⟩

theorem Aside.bind {next : α → Step β} (hact : Aside act) (hnext : ∀ a, Aside (next a)) :
    Aside (act >>= next) :=
  ⟨hact.accounts.bind fun a => (hnext a).accounts, hact.rights.bind fun a => (hnext a).rights,
    hact.created.bind fun a => (hnext a).created,
    hact.privileges.bind fun a => (hnext a).privileges⟩

end Step

/-! ## What each step writes into the report -/

section Reports
variable {τ : Type} {view : Report → τ}

namespace Orchestrator

theorem leaves_runnerStep (request : Request) (target : Option Identity)
    (hview : ∀ (r : Report) runner privilegesGranted restartRequired,
      view { r with runner, privilegesGranted, restartRequired } = view r) :
    Step.Leaves view (runnerStep request target) := by
  refine Step.Leaves.ite ?_ (Step.leaves_pure _)
  exact (Step.leaves_ofRun _).bind fun _ => (Step.leaves_report fun r => hview r _ _ _).bind
    fun _ => (Step.leaves_ofRun _).bind fun _ => Step.leaves_report fun r => hview r _ _ _

theorem leaves_directoriesStep (request : Request) (target : Option Identity)
    (hview : ∀ (r : Report) directoriesGranted, view { r with directoriesGranted } = view r) :
    Step.Leaves view (directoriesStep request target) :=
  Capability.leaves_directories _ _ request target hview

end Orchestrator

namespace Capability

theorem leaves_provisionGroup (identities : IdentityStore) (filesystem : CgroupFilesystem)
    (config : Config) (request : Request)
    (hview : ∀ (r : Report) target cgroups, view { r with target, cgroups } = view r) :
    Step.Leaves view (provisionGroup identities filesystem config request) :=
  (Step.leaves_ofRun _).bind fun _ => (Step.leaves_report fun r => hview r _ _).bind fun _ =>
    (Step.leaves_ofRun _).bind fun _ => (Step.leaves_ofRun _).bind fun _ =>
      (Step.leaves_report fun r => hview r _ _).bind fun _ =>
        Step.Leaves.ite ((Step.leaves_ofRun _).bind fun _ =>
          Step.Leaves.ite (Step.leaves_pure _) (Step.leaves_throw _)) (Step.leaves_pure _)

/-- A run for an isolation group has no part in accounts and privileges. -/
theorem aside_provisionGroup (identities : IdentityStore) (filesystem : CgroupFilesystem)
    (config : Config) (request : Request) :
    Step.Aside (provisionGroup identities filesystem config request) where
  accounts := steady_provisionGroup _ _ _ _ fun _ _ _ _ => ⟨fun _ => rfl, fun _ _ => rfl⟩
  rights := steady_provisionGroup _ _ _ _ fun _ _ _ _ => ⟨fun _ => rfl, fun _ _ => rfl⟩
  created := leaves_provisionGroup _ _ _ _ fun _ _ _ => rfl
  privileges := leaves_provisionGroup _ _ _ _ fun _ _ _ => rfl

end Capability

end Reports

/-! ## The account and the privileges -/

namespace Orchestrator

variable {o : Orchestrator} {request : Request} {h : Host} {p : Progress}

/-- Once the target is resolved, the report tells whether its account was created. -/
theorem tellsAccounts_resolveTarget (htables : o.OnTables)
    (hoptions : checkOptions request = .ok ()) (h : Host) :
    ((o.resolveTarget request).progressAfter ⟨h, { platform := o.capability.name }⟩).TellsAccounts
      h := by
  have hstore : o.capability.identities = .table := by rw [htables]; rfl
  cases hcreate : given request.createUser with
  | some name =>
      obtain ⟨-, credential, hpassword, hgiven⟩ := of_checkOptions hoptions hcreate
      obtain ⟨hname, hnamed⟩ := given_eq_some_iff.1 hcreate
      obtain ⟨i, -, -, hsource, hresolve⟩ :=
        IdentityStore.gives_resolveOrCreate (S := h.stores) hnamed hgiven
      obtain ⟨h', hresolved, hstores⟩ := hresolve h rfl
      have hended : o.resolveTarget request ⟨h, { platform := o.capability.name }⟩ =
          .ok (some i) { host := h', report := {
            platform := o.capability.name
            created := i.source == .created
            target := some i } } := by
        unfold resolveTarget
        rw [hstore, hname, hpassword, given_some_of_ne hnamed, if_pos Option.isSome_some]
        exact Step.ofRun_bind_of_ok hresolved _
      have haccounts : h'.accounts = h.accounts.withAccount name credential :=
        congrArg Stores.accounts hstores
      rw [Step.progressAfter_of_ok hended, Progress.TellsAccounts, haccounts,
        AccountTable.exists_new_withAccount]
      dsimp only
      rw [hsource]
      simp [Host.stores]
  | none =>
      have hsame : Step.Leads (SameBy Host.accounts) (o.resolveTarget request) :=
        leads_resolveTarget o request fun name _ hname => by
          rw [hcreate] at hname
          cases hname
      have hsilent : Step.Leaves Report.created (o.resolveTarget request) := by
        have hnamed (t : Identity) :
            Step.Leaves Report.created (Step.report fun r => { r with target := some t }) :=
          Step.leaves_report fun _ => rfl
        unfold resolveTarget
        rw [hcreate, if_neg (by simp)]
        refine Step.Leaves.ite ?_ (Step.Leaves.ite ?_ (Step.leaves_pure _)) <;>
          exact (Step.leaves_ofRun _).bind fun t => (hnamed t).bind fun _ => Step.leaves_pure _
      exact Step.tellsAccounts_after hsame hsilent (Progress.tellsAccounts_of_same rfl rfl)

/-- The grant is told of right after it was made. -/
theorem tellsPrivileges_grant (i : Identity) (privileges : PrivilegeSet)
    (hrights : p.host.rights = h.rights) (hsilent : p.report.privilegesGranted = []) :
    ((do
      let added ← Step.ofRun (SecurityPolicy.grant .table .table i privileges)
      Step.report fun r =>
        { r with privilegesGranted := added.toList, restartRequired := !added.isEmpty } :
        Step Unit).progressAfter p).TellsPrivileges h := by
  have hgrant := SecurityPolicy.tableGrantEnds_grant .table i privileges p.host
  cases hended : SecurityPolicy.grant .table .table i privileges p.host with
  | error e h' =>
      rw [hended] at hgrant
      rw [Step.progressAfter_of_error (Step.ofRun_bind_of_error hended _)]
      exact Progress.tellsPrivileges_of_same (hgrant.rights_of_error.trans hrights) hsilent
  | ok added h' =>
      rw [hended] at hgrant
      obtain ⟨hadded, hrights'⟩ := hgrant.of_ok
      rw [Step.progressAfter, Step.ofRun_bind_of_ok hended]
      refine ⟨added, rfl, fun q => ?_⟩
      change q ∈ added ↔ ∃ name, q ∈ h'.rights.heldBy name ∧ q ∉ h.rights.heldBy name
      rw [hadded, hrights', hrights, RightsTable.exists_gained_withPrivileges]

/-- Once the runner has what it is to have, the report tells what it has gained. -/
theorem inStep_runnerStep (target : Option Identity) (haccounts : p.TellsAccounts h)
    (hrights : p.host.rights = h.rights) (hsilent : p.report.privilegesGranted = []) :
    ((runnerStep request target).progressAfter p).InStep h := by
  refine ⟨Step.tellsAccounts_after (leads_runnerStep ⟨fun _ _ => rfl, fun _ _ _ _ _ => rfl⟩
    (fun _ _ _ => rfl) request target) (leaves_runnerStep request target fun _ _ _ _ => rfl)
    haccounts, ?_⟩
  unfold runnerStep
  cases request.runnerRequested with
  | false => exact Progress.tellsPrivileges_of_same hrights hsilent
  | true =>
      refine Step.after_bind
        (I := fun p => p.host.rights = h.rights ∧ p.report.privilegesGranted = [])
        ?_ (fun p' hp' => Progress.tellsPrivileges_of_same hp'.1 hp'.2) fun i p' hp' =>
          tellsPrivileges_grant i request.privileges hp'.1 hp'.2
      exact ⟨((Step.leads_ofRun (Capability.steady_runnerOf (R := SameBy Host.rights) .table request
        target)) p).trans hrights, (Step.leaves_ofRun _ p).trans hsilent⟩

theorem leads_directoriesStep {R : Host → Host → Prop} [Serving R]
    (hset : ∀ path name rights, Run.Leads R (AccessControl.setEntry .table path name rights))
    (request : Request) (target : Option Identity) :
    Step.Leads R (directoriesStep request target) :=
  Step.Leads.ite (Capability.leads_provisionDirectories _ _ _ _ fun _ _ _ => hset _ _ _)
    (Step.leads_pure _)

theorem aside_directoriesStep (request : Request) (target : Option Identity) :
    Step.Aside (directoriesStep request target) where
  accounts := leads_directoriesStep (fun _ _ _ =>
    AccessControl.leads_setEntry_table (fun _ => rfl) fun _ _ => rfl) request target
  rights := leads_directoriesStep (fun _ _ _ =>
    AccessControl.leads_setEntry_table (fun _ => rfl) fun _ _ => rfl) request target
  created := leaves_directoriesStep request target fun _ _ => rfl
  privileges := leaves_directoriesStep request target fun _ _ => rfl

theorem aside_log (level : LogLevel) (source : LogSource) (message : String) :
    Step.Aside (Step.ofRun (Run.log level source message)) :=
  Step.aside_ofRun (steady_log _ _ _) (steady_log _ _ _)

/-- However the steps of a run on the tables end, the report is in step. -/
theorem inStep_apply_tables (htables : o.OnTables) (hoptions : checkOptions request = .ok ())
    (h : Host) :
    ((o.apply request).progressAfter ⟨h, { platform := o.capability.name }⟩).InStep h := by
  have hrights : Step.Leads (SameBy Host.rights) (o.resolveTarget request) :=
    leads_resolveTarget_tables htables request (fun _ _ => rfl) fun _ _ => rfl
  have hsilent : Step.Leaves Report.privilegesGranted (o.resolveTarget request) :=
    leaves_resolveTarget o request fun _ _ _ => rfl
  rw [apply_eq htables]
  refine Step.after_bind
    (I := fun p => p.TellsAccounts h ∧ p.host.rights = h.rights ∧ p.report.privilegesGranted = [])
    ⟨tellsAccounts_resolveTarget htables hoptions h, hrights _, hsilent _⟩
    (fun p hp => ⟨hp.1, Progress.tellsPrivileges_of_same hp.2.1 hp.2.2⟩) fun target p hp => ?_
  refine Step.after_bind (I := Progress.InStep h) (inStep_runnerStep target hp.1 hp.2.1 hp.2.2)
    (fun _ hstep => hstep) fun _ p' hp' => ?_
  exact ((aside_directoriesStep request target).bind fun _ => aside_log _ _ _).inStep hp'

/-- However the steps of a run for an isolation group end, the report is in step. -/
theorem inStep_apply_linux {identities : IdentityStore} {filesystem : CgroupFilesystem}
    {config : Config} (hlinux : o.capability = .linux identities filesystem config)
    (hoptions : request.windowsOptions = []) (h : Host) :
    ((o.apply request).progressAfter ⟨h, { platform := o.capability.name }⟩).InStep h := by
  rw [Step.progressAfter, apply_linux_eq hlinux hoptions]
  exact ((Capability.aside_provisionGroup identities filesystem config request).bind
    fun _ => aside_log _ _ _).inStep
      ⟨Progress.tellsAccounts_of_same rfl rfl, Progress.tellsPrivileges_of_same rfl rfl⟩

end Orchestrator

/-! ## The group -/

/-- The change gives no path of a group to an owner. -/
def Change.KeepsOwners (c : Change) : Prop := ∀ path owner, c ≠ .changeOwner path owner

/-- No directory of a group was provisioned since the host `h`, and the report tells of none. -/
structure Progress.Ungrouped (h : Host) (p : Progress) : Prop where
  silent : p.report.cgroups = []
  grows : h.Grows Change.KeepsOwners p.host

/-- On the table the first directory of a list is refused if any is, and then none is given away. -/
theorem CgroupProvisioner.grows_of_provisionEach_error {p : CgroupProvisioner}
    (htable : p.filesystem = .table) {owner : String} {path : Path} {rest : List Path}
    {h h' : Host} {e : Fault} (hended : p.provisionEach owner (path :: rest) h = .error e h') :
    h.Grows Change.KeepsOwners h' := by
  by_cases hanswers : h.cgroups.Answers
  · exact absurd hended ((gives_provisionEach_table htable owner (path :: rest) hanswers).ne_error
      rfl)
  · obtain ⟨t', -, hfails⟩ := CgroupFilesystem.fails_ensureDirectory_table hanswers path
    obtain ⟨e', h₁, hrefused, -, -⟩ := hfails h rfl
    have hfirst : p.provisionEach owner (path :: rest) h = .error e' h₁ := by
      rw [← htable] at hrefused
      exact bind_apply_of_error (bind_apply_of_error hrefused _) _
    rw [hended] at hfirst
    cases hfirst
    exact (CgroupFilesystem.steady_ensureDirectory .table
      (allows_grows fun _ _ => nofun)).of_error hrefused

theorem CgroupProvisioner.ProvisionEnds.grows_of_error {p : CgroupProvisioner}
    (htable : p.filesystem = .table) {group owner : String} {h h' : Host} {e : Fault}
    (hends : ProvisionEnds p group owner h (.error e h')) : h.Grows Change.KeepsOwners h' := by
  have hasked := p.steady_ownerIsKnown (R := Host.Grows Change.KeepsOwners) owner
  cases hends with
  | unasked hknown => exact hasked.of_error hknown
  | unknown hknown => exact hasked.of_ok hknown
  | unnamed hknown hgroup => exact hasked.of_ok hknown
  | failed hknown hgroup heach =>
      exact trans_of (Host.Grows Change.KeepsOwners) (hasked.of_ok hknown)
        (grows_of_provisionEach_error htable heach)

/-- A run for a group on the table fails before any directory was provisioned. -/
theorem Capability.GroupEnds.ungrouped {identities : IdentityStore} {config : Config}
    {request : Request} {h : Host} {r : Report} {e : Fault} {p : Progress}
    (hends : GroupEnds identities .table config request h r (.error e p)) (hr : r.cgroups = []) :
    p.Ungrouped h := by
  have hlooked := IdentityStore.steady_resolve (R := Host.Grows Change.KeepsOwners) identities
    request.cgroupOwner
  cases hends with
  | ownerless hresolve => exact ⟨hr, hlooked.of_error hresolve⟩
  | @unprovisioned owner e h₁ h₂ hresolve hprovision =>
      have hprovisionEnds := (provisioner identities .table config).provisionEnds_provision
        (groupOf config request) owner.name
        (h₁.logged .info .platform (groupNotice config request owner.name))
      rw [hprovision] at hprovisionEnds
      refine ⟨hr, trans_of (Host.Grows Change.KeepsOwners) (hlooked.of_ok hresolve) ?_⟩
      exact trans_of (Host.Grows Change.KeepsOwners) (steady_log _ _ _ h₁)
        (hprovisionEnds.grows_of_error rfl)
  | unverified hresolve hprovision hverify =>
      obtain ⟨h₃, hfound⟩ := verify_of_provision_table hprovision
      rw [hverify.2] at hfound
      cases hfound
  | misowned hresolve hprovision hverify hne =>
      obtain ⟨h₃, hfound⟩ := verify_of_provision_table hprovision
      rw [hverify.2] at hfound
      cases hfound
      exact absurd rfl hne

namespace Orchestrator

variable {o : Orchestrator} {request : Request} {h : Host}

/-- On windows no group is provisioned. -/
theorem ungrouped_apply_tables (htables : o.OnTables) (h : Host) :
    ((o.apply request).progressAfter ⟨h, { platform := o.capability.name }⟩).Ungrouped h := by
  have hgrows : Step.Leads (Host.Grows Change.KeepsOwners) (o.apply request) := by
    refine steady_apply o request (fun _ _ => allows_grows fun _ _ => nofun) fun target => ?_
    rw [htables, provision_eq]
    exact (leads_runnerStep allowsPrivileges_grows (fun _ _ => allows_grows fun _ _ => nofun)
      request target).bind fun _ => leads_directoriesStep (fun _ _ _ =>
        AccessControl.steady_setEntry .table (allows_grows fun _ _ => nofun)) request target
  have hsilent : Step.Leaves Report.cgroups (o.apply request) := by
    rw [apply_eq htables]
    exact (leaves_resolveTarget o request fun _ _ _ => rfl).bind fun target =>
      (leaves_runnerStep request target fun _ _ _ _ => rfl).bind fun _ =>
        (leaves_directoriesStep request target fun _ _ => rfl).bind fun _ => Step.leaves_ofRun _
  exact ⟨hsilent _, hgrows _⟩

/-! ## The directories -/

/-- A run on the tables that fails tells of no directory, and one that ends tells of all that it has
granted. -/
theorem directoriesGranted_apply (htables : o.OnTables) (request : Request) (h : Host) :
    match o.apply request ⟨h, { platform := o.capability.name }⟩ with
    | .ok _ p => p.report.directoriesGranted = (o.grantsFrom request h).map DirectoryGrant.path
    | .error _ p => p.report.directoriesGranted = [] := by
  have hsilent : Step.Leaves Report.directoriesGranted (o.upToGrants request) := by
    refine (leaves_resolveTarget o request fun _ _ _ => rfl).bind fun target =>
      (leaves_runnerStep request target fun _ _ _ _ => rfl).bind fun _ =>
        Step.Leaves.ite (Step.leaves_pure _) ?_
    cases target with
    | none => exact Step.leaves_throw _
    | some t => exact (Step.leaves_ofRun _).bind fun _ => Step.leaves_pure _
  have hbefore := hsilent ⟨h, { platform := o.capability.name }⟩
  have hends := grantsEnd_apply htables request h
  unfold grantsFrom
  revert hends
  generalize o.apply request ⟨h, { platform := o.capability.name }⟩ = result
  intro hends
  cases hends with
  | unreached hupto =>
      rw [Step.progressAfter_of_error hupto] at hbefore
      exact hbefore
  | unwanted hupto =>
      rw [Step.progressAfter_of_ok hupto] at hbefore
      rw [hupto]
      exact hbefore
  | refused hupto hgrants =>
      rw [Step.progressAfter_of_ok hupto] at hbefore
      exact hbefore
  | granted hupto hgrants =>
      rw [hupto]
      exact congrArg (List.map DirectoryGrant.path) (AccessControl.eq_grantsOfAll_of_ok hgrants)

theorem sublist_grantsFrom (o : Orchestrator) (request : Request) (h : Host) :
    ((o.grantsFrom request h).map DirectoryGrant.path).Sublist request.directories ∧
      ∀ g ∈ o.grantsFrom request h, g.rights = request.rights := by
  unfold grantsFrom
  split
  · rename_i t p hupto
    unfold AccessControl.grantsOfAll
    split
    · rename_i i h' hrequire
      obtain ⟨granted, hsublist, hgrants⟩ :=
        AccessControl.exists_sublist_grantsOn t request.rights request.directories h'
      rw [hgrants]
      exact ⟨by simpa [Function.comp_def] using hsublist, by simp⟩
    · exact ⟨List.nil_sublist _, by simp⟩
  · exact ⟨List.nil_sublist _, by simp⟩

/-- Without options for windows a run grants no directory. -/
theorem grantsFrom_of_windowsOptions (o : Orchestrator) (hoptions : request.windowsOptions = [])
    (h : Host) : o.grantsFrom request h = [] := by
  rw [grantsFrom, upToGrants, bind_eq_of_ok (resolveTarget_of_windowsOptions o hoptions _)]
  cases hrunner : runnerStep request none ⟨h, { platform := o.capability.name }⟩ with
  | error e p => rw [bind_eq_of_error hrunner]
  | ok u p =>
      rw [bind_eq_of_ok hrunner, granteeStep, Request.directories_of_windowsOptions hoptions]
      rfl

/-! ## A run that failed -/

/-- A run whose changes are made to stores kept in memory. -/
inductive InMemory (o : Orchestrator) : Prop where
  | windows (htables : o.OnTables)
  | linux {identities : IdentityStore} {config : Config}
      (hlinux : o.capability = .linux identities .table config)

/-- What a run that failed has done since the host `h`, and what its report tells: of the account, the
privileges and the group all, and of the grants that were made nothing. -/
structure LeavesUntold (request : Request) (h : Host) (grants : List DirectoryGrant)
    (p : Progress) : Prop where
  inStep : p.InStep h
  ungrouped : p.Ungrouped h
  /-- The grants were made on paths of the request, in its order. -/
  onPaths : (grants.map DirectoryGrant.path).Sublist request.directories
  withRights : ∀ g ∈ grants, g.rights = request.rights
  /-- They are all that was made of the access lists. -/
  access : h.access.AfterGrants grants p.host.access
  untold : p.report.directoriesGranted = []

theorem leavesUntold_of_tables (htables : o.OnTables) (hoptions : checkOptions request = .ok ())
    {e : Fault} {p : Progress}
    (happly : o.apply request ⟨h, { platform := o.capability.name }⟩ = .error e p) :
    LeavesUntold request h (o.grantsFrom request h) p := by
  have hended := Step.progressAfter_of_error happly
  have huntold := directoriesGranted_apply htables request h
  rw [happly] at huntold
  obtain ⟨hpaths, hrights⟩ := sublist_grantsFrom o request h
  exact
    { inStep := hended ▸ inStep_apply_tables htables hoptions h
      ungrouped := hended ▸ ungrouped_apply_tables htables h
      onPaths := hpaths
      withRights := hrights
      access := hended ▸ afterGrants_apply htables request h
      untold := huntold }

theorem leavesUntold_of_group {identities : IdentityStore} {config : Config}
    (hlinux : o.capability = .linux identities .table config)
    (hoptions : request.windowsOptions = []) {e : Fault} {p : Progress}
    (happly : o.apply request ⟨h, { platform := o.capability.name }⟩ = .error e p) :
    LeavesUntold request h (o.grantsFrom request h) p := by
  have hended := Step.progressAfter_of_error happly
  have hgroup := Capability.groupEnds_provisionGroup identities .table config request h
    { platform := o.capability.name }
  have hfailed := provisionGroup_of_apply_error hlinux hoptions happly
  have haccess : Step.Leads (SameBy Host.access)
      (Capability.provisionGroup identities .table config request) :=
    Capability.steady_provisionGroup _ _ _ _ fun _ _ _ _ => ⟨fun _ => rfl, fun _ _ => rfl⟩
  have huntold : Step.Leaves Report.directoriesGranted
      (Capability.provisionGroup identities .table config request) :=
    Capability.leaves_provisionGroup _ _ _ _ fun _ _ _ => rfl
  rw [grantsFrom_of_windowsOptions o hoptions]
  exact
    { inStep := hended ▸ inStep_apply_linux hlinux hoptions h
      ungrouped := (hfailed ▸ hgroup).ungrouped rfl
      onPaths := List.nil_sublist _
      withRights := fun g hg => absurd hg List.not_mem_nil
      access := AccessTable.afterGrants_nil (congrArg AccessTable.lists (haccess.of_error hfailed))
      untold := Step.progressAfter_of_error hfailed ▸ huntold _ }

/-- **What the report of a failed run tells.**  When a run fails that had begun, its report says that
an account was created exactly if one was, lists exactly the privileges that were added, and tells of
no group, none of whose directories was provisioned.  It tells of no directory either.  So it lists the
grants that the run has made exactly if there are none. -/
theorem failed_run_reports_iff (hmemory : o.InMemory) {s s' : Session} {e : Fault}
    (hbegins : o.Begins request s h) (hrun : o.run request s = .error e s') :
    ∃ R, s'.report = some R ∧ LeavesUntold request h (o.grantsFrom request h) ⟨s'.host, R⟩ ∧
      (R.directoriesGranted = (o.grantsFrom request h).map DirectoryGrant.path ↔
        o.grantsFrom request h = []) := by
  obtain ⟨p, happly, rfl⟩ : ∃ p, o.apply request ⟨h, { platform := o.capability.name }⟩ =
      .error e p ∧ s' = ⟨p.host, some p.report⟩ := by
    rw [run_eq_of_begins hbegins] at hrun
    cases hp : o.apply request ⟨h, { platform := o.capability.name }⟩ with
    | ok u p =>
        rw [hp] at hrun
        cases hrun
    | error e' p =>
        rw [hp] at hrun
        cases hrun
        exact ⟨p, rfl, rfl⟩
  have hleaves : LeavesUntold request h (o.grantsFrom request h) p := by
    cases hmemory with
    | windows htables =>
        obtain ⟨_, h₁, hvalidate, -⟩ := bind_apply_eq_ok_iff.1 hbegins
        exact leavesUntold_of_tables htables (accepted_of_validate htables hvalidate).options happly
    | linux hlinux =>
        exact leavesUntold_of_group hlinux (windowsOptions_of_begins hlinux hbegins) happly
  refine ⟨p.report, rfl, hleaves, ?_⟩
  rw [hleaves.untold, eq_comm, List.map_eq_nil_iff]

/-- The second of two directories is refused, and the first was granted. -/
theorem failed_run_reports_iff_srv :
    let h : Host :=
      { accounts := .ofNames ["svc"] "operator"
        access := { denied := ["/data"] }
        tree := .ofRows [(Path.ofString "/srv", {}), (Path.ofString "/data", {})] }
    let o : Orchestrator := { capability := .windows .table .table .table }
    let request : Request := { user := some "svc", directories := ["/srv", "/data"] }
    ∃ e s' R, o.run request ⟨h, none⟩ = .error e s' ∧ s'.report = some R ∧
      (R.directoriesGranted = (o.grantsFrom request h).map DirectoryGrant.path ↔
        o.grantsFrom request h = []) := by
  intro h o request
  obtain ⟨e, s', hrun⟩ : ∃ e s', o.run request ⟨h, none⟩ = .error e s' := ⟨_, _, rfl⟩
  have hbegins : o.Begins request ⟨h, none⟩ h := rfl
  obtain ⟨R, hR, -, hiff⟩ := failed_run_reports_iff (.windows (o := o) rfl) hbegins hrun
  exact ⟨e, s', R, hrun, hR, hiff⟩

/-- A failed run may have granted a directory that its report does not list. -/
theorem not_always_reported :
    ¬ ∀ (o : Orchestrator) (request : Request) (s s' : Session) (h : Host) (e : Fault) (R : Report),
      o.InMemory → o.Begins request s h → o.run request s = .error e s' → s'.report = some R →
      R.directoriesGranted = (o.grantsFrom request h).map DirectoryGrant.path := by
  intro htold
  let h : Host :=
    { accounts := .ofNames ["svc"] "operator"
      access := { denied := ["/data"] }
      tree := .ofRows [(Path.ofString "/srv", {}), (Path.ofString "/data", {})] }
  let o : Orchestrator := { capability := .windows .table .table .table }
  let request : Request := { user := some "svc", directories := ["/srv", "/data"] }
  obtain ⟨e, s', R, hrun, hR, hgranted⟩ : ∃ e s' R, o.run request ⟨h, none⟩ = .error e s' ∧
      s'.report = some R ∧ R.directoriesGranted = [] := ⟨_, _, _, rfl, rfl, rfl⟩
  have hpaths : (o.grantsFrom request h).map DirectoryGrant.path = ["/srv"] := by decide +kernel
  have hlisted := htold o request ⟨h, none⟩ s' h e R (.windows rfl) rfl hrun hR
  rw [hgranted, hpaths] at hlisted
  cases hlisted

end Orchestrator

end Provisioning
