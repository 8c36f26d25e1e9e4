/-
# `Provisioning.Proofs.Cgroup.Group` — how a run for an isolation group ends

Once a run for an isolation group has begun there are five ways for it to end,
and each says from which step the end came.

    the owner is not found                   nothing was asked for
    the group is not provisioned             the host is as that left it
    its directories cannot be looked at      everything was made and given away
    one of them belongs to another           everything was made and given away
    everything was done

**Stated here.**  `GroupEnds`, and that every run that has begun takes one of
its cases (`endsGroup_run`).  What a case says of the stores is said of the
one step that it names.
-/
import Provisioning.Proofs.Cgroup.Paths
import Provisioning.Proofs.Consent

namespace Provisioning

open Run

/-- Looking at the owner of a path only looks. -/
theorem CgroupFilesystem.leads_ownerOf (fs : CgroupFilesystem) (path : Path) :
    Leads Eq (fs.ownerOf path) := by
  have htree : Leads Eq (treeOwnerOf path) := by
    refine (leads_entryAt _).bind fun n => ?_
    cases n with
    | none => exact leads_pure _
    | some n => exact (leads_userOf? n.uid).bind fun _ => leads_pure _
  cases fs with
  | table => exact leads_get.bind fun _ => leads_pure _
  | direct => exact htree
  | viaSudo executable limit => exact htree

namespace CgroupProvisioner

/-- Verifying only looks. -/
theorem leads_notOwned (p : CgroupProvisioner) (owner : String) :
    ∀ specs : List CgroupSpec, Leads Eq (p.notOwned owner specs)
  | [] => leads_pure _
  | s :: rest => (p.filesystem.leads_ownerOf (s.path p.root)).bind fun _ =>
      (leads_notOwned p owner rest).bind fun _ => leads_pure _

theorem leads_verify (p : CgroupProvisioner) (group owner : String) :
    Leads Eq (p.verify group owner) :=
  (leads_ofExcept _).bind fun specs => leads_notOwned p owner specs

/-- Checking the owner against the accounts only looks. -/
theorem looked_ownerIsKnown {p : CgroupProvisioner} {store : IdentityStore}
    (hstore : p.identities = some store) (owner : String) :
    Leads (Host.Looked store) (p.ownerIsKnown owner) := by
  unfold ownerIsKnown
  refine Leads.ite (leads_pure _) ?_
  rw [hstore]
  exact IdentityStore.looked_exists? store owner

/-- Checking the owner makes no call on the hierarchy. -/
theorem leads_ownerIsKnown (p : CgroupProvisioner) (owner : String) :
    Leads (SameBy Host.cgroups) (p.ownerIsKnown owner) := by
  cases hstore : p.identities with
  | none =>
      unfold ownerIsKnown
      rw [hstore]
      exact Leads.ite (leads_pure _) (leads_pure _)
  | some store => exact (looked_ownerIsKnown hstore owner).mono fun _ _ hlooked => hlooked.cgroups_eq

/-- How provisioning a group ends, when it begins on the host `h`. -/
inductive ProvisionEnds (p : CgroupProvisioner) (group owner : String) (h : Host) :
    EStateM.Result Fault Host (List Path) → Prop where
  /-- The accounts could not be asked about the owner. -/
  | unasked {e : Fault} {h₁ : Host} (hknown : p.ownerIsKnown owner h = .error e h₁) :
      ProvisionEnds p group owner h (.error e h₁)
  /-- The owner is no account. -/
  | unknown {h₁ : Host} (hknown : p.ownerIsKnown owner h = .ok false h₁) :
      ProvisionEnds p group owner h (.error (IdentityStore.unknownAccount owner) h₁)
  /-- The group has no name. -/
  | unnamed {e : Fault} {h₁ : Host} (hknown : p.ownerIsKnown owner h = .ok true h₁)
      (hgroup : CgroupSpec.forGroup group = .error e) : ProvisionEnds p group owner h (.error e h₁)
  /-- A directory could not be made or given away. -/
  | failed {specs : List CgroupSpec} {e : Fault} {h₁ h₂ : Host}
      (hknown : p.ownerIsKnown owner h = .ok true h₁)
      (hgroup : CgroupSpec.forGroup group = .ok specs)
      (heach : p.provisionEach owner (groupPaths p.root group) h₁ = .error e h₂) :
      ProvisionEnds p group owner h (.error e h₂)
  /-- All directories were made and given away. -/
  | provisioned {specs : List CgroupSpec} {h₁ h₂ : Host}
      (hknown : p.ownerIsKnown owner h = .ok true h₁)
      (hgroup : CgroupSpec.forGroup group = .ok specs)
      (heach : p.provisionEach owner (groupPaths p.root group) h₁ = .ok () h₂) :
      ProvisionEnds p group owner h (.ok (groupPaths p.root group) h₂)

/-- A known owner is given the directories of a group that has a name. -/
theorem provision_of_known {p : CgroupProvisioner} {group owner : String} {h h₁ : Host}
    {specs : List CgroupSpec} (hknown : p.ownerIsKnown owner h = .ok true h₁)
    (hspecs : CgroupSpec.forGroup group = .ok specs) :
    p.provision group owner h =
      (do
        p.provisionEach owner (groupPaths p.root group)
        return groupPaths p.root group : Run (List Path)) h₁ := by
  rw [← paths_forGroup hspecs p.root, provision, bind_apply_of_ok hknown, hspecs]
  rfl

theorem provisionEnds_provision (p : CgroupProvisioner) (group owner : String) (h : Host) :
    ProvisionEnds p group owner h (p.provision group owner h) := by
  cases hknown : p.ownerIsKnown owner h with
  | error e h₁ =>
      have hended : p.provision group owner h = .error e h₁ := bind_apply_of_error hknown _
      exact hended ▸ .unasked hknown
  | ok known h₁ =>
      cases known with
      | false =>
          have hended : p.provision group owner h =
              .error (IdentityStore.unknownAccount owner) h₁ := bind_apply_of_ok hknown _
          exact hended ▸ .unknown hknown
      | true =>
          cases hspecs : CgroupSpec.forGroup group with
          | error e =>
              have hended : p.provision group owner h = .error e h₁ := by
                rw [provision, bind_apply_of_ok hknown, hspecs]
                rfl
              exact hended ▸ .unnamed hknown hspecs
          | ok specs =>
              rw [provision_of_known hknown hspecs]
              cases heach : p.provisionEach owner (groupPaths p.root group) h₁ with
              | error e h₂ =>
                  rw [bind_apply_of_error heach]
                  exact .failed hknown hspecs heach
              | ok u h₂ =>
                  rw [bind_apply_of_ok heach]
                  exact .provisioned hknown hspecs heach

end CgroupProvisioner

namespace Capability

/-- The line that is logged before a group is provisioned. -/
def groupNotice (config : Config) (request : Request) (owner : String) : String :=
  "Provisioning cgroup group '" ++ groupOf config request ++ "' under " ++
    config.cgroupRoot.toString ++ " for '" ++ owner ++ "'"

/-- The failure of a run whose directories do not all belong to the owner. -/
def misowned (config : Config) (request : Request) (owner : String)
    (wrong : List CgroupSubsystem) : Fault :=
  .refuse .permissionDenied
    ("cgroup directories not owned by '" ++ owner ++ "': " ++
      ", ".intercalate (wrong.map CgroupSubsystem.toString))
    [("group", .text (groupOf config request)),
      ("subsystems", .texts (wrong.map CgroupSubsystem.toString))]

/-- How the steps of a run for an isolation group end, when they begin on the host `h` with the
report `r`. -/
inductive GroupEnds (identities : IdentityStore) (filesystem : CgroupFilesystem) (config : Config)
    (request : Request) (h : Host) (r : Report) : EStateM.Result Fault Progress Unit → Prop where
  /-- The owner cannot be resolved. -/
  | ownerless {e : Fault} {h₁ : Host}
      (hresolve : identities.resolve request.cgroupOwner h = .error e h₁) :
      GroupEnds identities filesystem config request h r (.error e ⟨h₁, r⟩)
  /-- The group could not be provisioned for its owner. -/
  | unprovisioned {owner : Identity} {e : Fault} {h₁ h₂ : Host}
      (hresolve : identities.resolve request.cgroupOwner h = .ok owner h₁)
      (hprovision : (provisioner identities filesystem config).provision (groupOf config request)
        owner.name (h₁.logged .info .platform (groupNotice config request owner.name)) =
          .error e h₂) :
      GroupEnds identities filesystem config request h r
        (.error e ⟨h₂, { r with target := some owner }⟩)
  /-- The directories could not be looked at afterwards. -/
  | unverified {owner : Identity} {paths : List Path} {e : Fault} {h₁ h₂ : Host}
      (hresolve : identities.resolve request.cgroupOwner h = .ok owner h₁)
      (hprovision : (provisioner identities filesystem config).provision (groupOf config request)
        owner.name (h₁.logged .info .platform (groupNotice config request owner.name)) =
          .ok paths h₂)
      (hverify : config.verifyCgroups = true ∧
        (provisioner identities filesystem config).verify (groupOf config request) owner.name h₂ =
          .error e h₂) :
      GroupEnds identities filesystem config request h r
        (.error e ⟨h₂, { r with target := some owner, cgroups := paths.map Path.toString }⟩)
  /-- Some directories belong to another afterwards. -/
  | misowned {owner : Identity} {paths : List Path} {wrong : List CgroupSubsystem} {h₁ h₂ : Host}
      (hresolve : identities.resolve request.cgroupOwner h = .ok owner h₁)
      (hprovision : (provisioner identities filesystem config).provision (groupOf config request)
        owner.name (h₁.logged .info .platform (groupNotice config request owner.name)) =
          .ok paths h₂)
      (hverify : config.verifyCgroups = true ∧
        (provisioner identities filesystem config).verify (groupOf config request) owner.name h₂ =
          .ok wrong h₂)
      (hne : wrong ≠ []) :
      GroupEnds identities filesystem config request h r
        (.error (misowned config request owner.name wrong)
          ⟨h₂, { r with target := some owner, cgroups := paths.map Path.toString }⟩)
  /-- Everything was done, and verified if that is wanted. -/
  | provisioned {owner : Identity} {paths : List Path} {h₁ h₂ : Host}
      (hresolve : identities.resolve request.cgroupOwner h = .ok owner h₁)
      (hprovision : (provisioner identities filesystem config).provision (groupOf config request)
        owner.name (h₁.logged .info .platform (groupNotice config request owner.name)) =
          .ok paths h₂)
      (hverify : config.verifyCgroups = true →
        (provisioner identities filesystem config).verify (groupOf config request) owner.name h₂ =
          .ok [] h₂) :
      GroupEnds identities filesystem config request h r
        (.ok () ⟨h₂, { r with target := some owner, cgroups := paths.map Path.toString }⟩)

/-- Once its owner is resolved, a group is provisioned and then verified. -/
theorem provisionGroup_of_resolve {identities : IdentityStore} {filesystem : CgroupFilesystem}
    {config : Config} {request : Request} {h h₁ : Host} {owner : Identity}
    (hresolve : identities.resolve request.cgroupOwner h = .ok owner h₁) (r : Report) :
    provisionGroup identities filesystem config request ⟨h, r⟩ =
      (do
        let paths ← Step.ofRun ((provisioner identities filesystem config).provision
          (groupOf config request) owner.name)
        Step.report fun r => { r with cgroups := paths.map Path.toString }
        if config.verifyCgroups then
          let wrong ← Step.ofRun ((provisioner identities filesystem config).verify
            (groupOf config request) owner.name)
          if wrong.isEmpty then return () else throw (misowned config request owner.name wrong) :
        Step Unit)
      ⟨h₁.logged .info .platform (groupNotice config request owner.name),
        { r with target := some owner }⟩ :=
  Step.ofRun_bind_of_ok hresolve _

theorem groupEnds_provisionGroup (identities : IdentityStore) (filesystem : CgroupFilesystem)
    (config : Config) (request : Request) (h : Host) (r : Report) :
    GroupEnds identities filesystem config request h r
      (provisionGroup identities filesystem config request ⟨h, r⟩) := by
  cases hresolve : identities.resolve request.cgroupOwner h with
  | error e h₁ =>
      have hended : provisionGroup identities filesystem config request ⟨h, r⟩ =
          .error e ⟨h₁, r⟩ := Step.ofRun_bind_of_error hresolve _
      exact hended ▸ .ownerless hresolve
  | ok owner h₁ =>
      rw [provisionGroup_of_resolve hresolve]
      cases hprovision : (provisioner identities filesystem config).provision
          (groupOf config request) owner.name
          (h₁.logged .info .platform (groupNotice config request owner.name)) with
      | error e h₂ =>
          rw [Step.ofRun_bind_of_error hprovision]
          exact .unprovisioned hresolve hprovision
      | ok paths h₂ =>
          rw [Step.ofRun_bind_of_ok hprovision, Step.report_bind]
          dsimp only
          cases hwanted : config.verifyCgroups with
          | false =>
              refine .provisioned hresolve hprovision fun hverify => ?_
              rw [hwanted] at hverify
              exact nomatch hverify
          | true =>
              rw [if_pos rfl]
              have hlooks := (provisioner identities filesystem config).leads_verify
                (groupOf config request) owner.name
              cases hverify : (provisioner identities filesystem config).verify
                  (groupOf config request) owner.name h₂ with
              | error e h₃ =>
                  obtain rfl := hlooks.of_error hverify
                  rw [Step.ofRun_bind_of_error hverify]
                  exact .unverified hresolve hprovision ⟨hwanted, hverify⟩
              | ok wrong h₃ =>
                  obtain rfl := hlooks.of_ok hverify
                  rw [Step.ofRun_bind_of_ok hverify]
                  cases wrong with
                  | nil => exact .provisioned hresolve hprovision fun _ => hverify
                  | cons c cs =>
                      exact .misowned hresolve hprovision ⟨hwanted, hverify⟩ (List.cons_ne_nil c cs)

end Capability

namespace Orchestrator

variable {o : Orchestrator} {identities : IdentityStore} {filesystem : CgroupFilesystem}
  {config : Config} {request : Request}

/-- A run for an isolation group begins only without options that it would not act on. -/
theorem windowsOptions_of_begins (hlinux : o.capability = .linux identities filesystem config)
    {s : Session} {h : Host} (hbegins : o.Begins request s h) : request.windowsOptions = [] := by
  obtain ⟨_, h₁, hvalidate, -⟩ := bind_apply_eq_ok_iff.1 hbegins
  obtain ⟨h₂, hcapability⟩ := capability_validate_of_validate hvalidate
  rw [hlinux] at hcapability
  exact (Capability.of_validate_linux hcapability).1

/-- The steps of a run for an isolation group are those of the group, and a line in the log. -/
theorem apply_linux_eq (hlinux : o.capability = .linux identities filesystem config)
    (hoptions : request.windowsOptions = []) (h : Host) (r : Report) :
    o.apply request ⟨h, r⟩ =
      (do
        Capability.provisionGroup identities filesystem config request
        Step.ofRun (Run.log .info .orchestrator ("Provisioning finished on " ++ o.capability.name)) :
        Step Unit) ⟨h, r⟩ := by
  unfold apply
  rw [bind_eq_of_ok (resolveTarget_of_windowsOptions o hoptions _), hlinux]
  rfl

/-- A run for an isolation group fails with what the steps of the group fail with. -/
theorem provisionGroup_of_apply_error (hlinux : o.capability = .linux identities filesystem config)
    (hoptions : request.windowsOptions = []) {h : Host} {r : Report} {e : Fault} {p : Progress}
    (happly : o.apply request ⟨h, r⟩ = .error e p) :
    Capability.provisionGroup identities filesystem config request ⟨h, r⟩ = .error e p := by
  rw [apply_linux_eq hlinux hoptions] at happly
  cases hp : Capability.provisionGroup identities filesystem config request ⟨h, r⟩ with
  | error e' p' =>
      rw [bind_eq_of_error hp] at happly
      rw [happly]
  | ok u p' =>
      rw [bind_eq_of_ok hp] at happly
      cases happly

/-- The report with which the steps of a run for an isolation group begin. -/
def groupReport : Report := { platform := "linux" }

/-- How a run for an isolation group ends, by what the steps of the group end with. -/
inductive EndsGroup (o : Orchestrator) (identities : IdentityStore) (filesystem : CgroupFilesystem)
    (config : Config) (request : Request) (s : Session) :
    EStateM.Result Fault Session Report → Prop where
  /-- It was not accepted or not confirmed. -/
  | unbegun {e : Fault} {h : Host}
      (hended : (do o.validate request; o.confirm request : Run Unit) s.host = .error e h) :
      EndsGroup o identities filesystem config request s (.error e ⟨h, s.report⟩)
  /-- It began, and a step of the group failed. -/
  | failed {e : Fault} {h : Host} {p : Progress} (hbegins : o.Begins request s h)
      (hgroup : Capability.GroupEnds identities filesystem config request h groupReport
        (.error e p)) :
      EndsGroup o identities filesystem config request s (.error e ⟨p.host, some p.report⟩)
  /-- It began, and the steps of the group were done. -/
  | returned {h : Host} {p : Progress} (hbegins : o.Begins request s h)
      (hgroup : Capability.GroupEnds identities filesystem config request h groupReport
        (.ok () p)) :
      EndsGroup o identities filesystem config request s
        (.ok p.report ⟨p.host.logged .info .orchestrator "Provisioning finished on linux",
          some p.report⟩)

theorem endsGroup_run (hlinux : o.capability = .linux identities filesystem config)
    (request : Request) (s : Session) :
    EndsGroup o identities filesystem config request s (o.run request s) := by
  have hreport : ({ platform := o.capability.name } : Report) = groupReport := by
    rw [hlinux]
    rfl
  have hends := ends_run o request s
  revert hends
  generalize o.run request s = result
  intro hends
  cases hends with
  | unbegun hended => exact .unbegun hended
  | @failed e h p hbegins happly =>
      have hgroup := Capability.groupEnds_provisionGroup identities filesystem config request h
        groupReport
      rw [hreport] at happly
      have hfailed := provisionGroup_of_apply_error hlinux
        (windowsOptions_of_begins hlinux hbegins) happly
      exact .failed hbegins (hfailed ▸ hgroup)
  | @returned h p hbegins happly =>
      have hgroup := Capability.groupEnds_provisionGroup identities filesystem config request h
        groupReport
      rw [hreport, apply_linux_eq hlinux (windowsOptions_of_begins hlinux hbegins)] at happly
      cases hp : Capability.provisionGroup identities filesystem config request
          ⟨h, groupReport⟩ with
      | error e' p' =>
          rw [bind_eq_of_error hp] at happly
          exact nomatch happly
      | ok u p' =>
          rw [bind_eq_of_ok hp, hlinux] at happly
          cases happly
          exact .returned hbegins (hp ▸ hgroup)

end Orchestrator

end Provisioning
