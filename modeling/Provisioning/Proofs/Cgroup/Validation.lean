/-
# `Provisioning.Proofs.Cgroup.Validation` — a refusal of the request that comes too late

A refusal of the validation family is meant to say that nothing was touched.
A run for an isolation group by direct calls raises one for a controller that
is not mounted, and it looks at a controller only when its turn has come: the
directories of the controllers before it have then been made and given away.
It also raises one for an owner without a number, and it looks the number up
only when there is a directory to give away.

**Stated here.**  Exactly when such a refusal leaves the file tree changed
(`TooLate`), which of the two it is, and that every other one leaves the file
tree as it was.
-/
import Provisioning.Proofs.Cgroup.Direct

namespace Provisioning

open Run

/-- The refusal `e` of the request comes up only after something was changed, when a group is
provisioned for an owner from the host `h` on. -/
inductive TooLate (p : CgroupProvisioner) (group owner : String) (h : Host) : Fault → Prop where
  /-- The first directory is made before the number of its owner is looked up. -/
  | numberless (hmakeable : h.tree.Makeable (groupPath p.root group .blkio))
      (hnumber : h.passwd.lookup owner = none) :
      TooLate p group owner h (IdentityStore.unknownAccount owner)
  /-- The directories of other controllers were made or given away before it is seen that this one is
  not mounted. -/
  | unmounted {c : CgroupSubsystem} {before after : List CgroupSubsystem} {h₁ : Host}
      (hall : CgroupSubsystem.all = before ++ c :: after)
      (hbefore : p.provisionEach owner (before.map (groupPath p.root group)) h =
        .ok () h₁)
      (hchanged : h₁.tree ≠ h.tree)
      (hunmounted : h.tree.Unmounted (groupPath p.root group c)) :
      TooLate p group owner h (CgroupFilesystem.notMounted (groupPath p.root group c))

namespace CgroupProvisioner

variable {p : CgroupProvisioner} {group owner : String} {h h' : Host} {e : Fault}

/-- Neither the directory of an unmounted controller nor its parent is among those provisioned
before. -/
theorem not_mem_before (hdirect : p.filesystem = .direct) {c : CgroupSubsystem}
    {before after : List CgroupSubsystem} (hall : CgroupSubsystem.all = before ++ c :: after)
    {h₁ : Host}
    (hbefore : p.provisionEach owner (before.map (groupPath p.root group)) h =
      .ok () h₁)
    (hunmounted : h.tree.Unmounted (groupPath p.root group c)) :
    groupPath p.root group c ∉ before.map (groupPath p.root group) ∧
      (groupPath p.root group c).parent ∉
        before.map (groupPath p.root group) := by
  by_cases hrelative : (Path.ofString group).root = .relative
  · constructor
    · intro hmem
      obtain ⟨d, hd, hsame⟩ := List.mem_map.1 hmem
      obtain rfl := groupPath_injective hrelative hsame
      have hnodup := CgroupSubsystem.nodup_all
      rw [hall] at hnodup
      exact (List.nodup_append.1 hnodup).2.2 d hd d List.mem_cons_self rfl
    · intro hmem
      obtain ⟨d, -, hsame⟩ := List.mem_map.1 hmem
      -- the parent has a name less than any directory of the group
      have hlength := congrArg (fun q : Path => q.names.length) hsame
      simp only [Path.parent, (groupPath_of_relative hrelative p.root _).2, List.length_dropLast,
        List.length_append, List.length_cons] at hlength
      omega
  · have hsame := groupPath_of_rooted hrelative p.root
    cases before with
    | nil => simp
    | cons d before =>
        have hfirst := (first_of_provisionEach hdirect hbefore).1
        rw [hsame] at hfirst hunmounted
        exact absurd hunmounted hfirst

/-- A directory whose controller is not mounted is refused, and nothing changes. -/
theorem provisionOne_of_unmounted (hdirect : p.filesystem = .direct) (owner : String) {path : Path}
    (hunmounted : h.tree.Unmounted path) :
    ∃ h', p.provisionOne owner path h = .error (CgroupFilesystem.notMounted path) h' ∧
      h'.tree = h.tree := by
  have hends := oneEnds_provisionOne hdirect owner path h
  cases hone : p.provisionOne owner path h with
  | ok u h' =>
      rw [hone] at hends
      cases hends with
      | done hmounted _ _ _ => exact absurd hunmounted hmounted
  | error e h' =>
      rw [hone] at hends
      cases hends with
      | unmounted _ htree => exact ⟨h', rfl, htree⟩
      | numberlessNew _ hmakeable _ => exact absurd hunmounted hmakeable.not_unmounted
      | numberlessOld _ hthere _ => exact absurd hunmounted.1 hthere
      | refused _ hmounted _ => exact absurd hunmounted hmounted

/-- A directory that can be made is made before it is seen that its owner has no number. -/
theorem provisionOne_of_numberless (hdirect : p.filesystem = .direct) {path : Path}
    (hmakeable : h.tree.Makeable path) (hnumber : h.passwd.lookup owner = none) :
    ∃ h', p.provisionOne owner path h = .error (IdentityStore.unknownAccount owner) h' ∧
      h'.tree = h.tree.put path { uid := h.euid } := by
  have hends := oneEnds_provisionOne hdirect owner path h
  cases hone : p.provisionOne owner path h with
  | ok u h' =>
      rw [hone] at hends
      cases hends with
      | done _ hnumber' _ _ => exact absurd hnumber hnumber'
  | error e h' =>
      rw [hone] at hends
      cases hends with
      | unmounted hunmounted _ => exact absurd hunmounted hmakeable.not_unmounted
      | numberlessNew _ _ htree => exact ⟨h', rfl, htree⟩
      | numberlessOld _ hthere _ => exact absurd hmakeable.1 hthere
      | refused _ _ hnumber' => exact absurd hnumber (hnumber' hmakeable)

section
variable {paths : List Path} {q : Path} {h₁ : Host}

/-- A controller that is not mounted was not mounted before. -/
theorem unmounted_before (hdirect : p.filesystem = .direct)
    (hdone : p.provisionEach owner paths h = .ok () h₁) (hunmounted : h₁.tree.Unmounted q) :
    h.tree.Unmounted q := by
  obtain ⟨-, hentries⟩ := entries_of_provisionEach hdirect hdone
  have habsent : ∀ r, h₁.tree.get? r = none → h.tree.get? r = none := fun r hr => by
    rw [← Option.not_isSome_iff_eq_none] at hr ⊢
    exact fun hsome => hr ((hentries r).2 (.inr hsome))
  exact ⟨habsent _ hunmounted.1, habsent _ hunmounted.2⟩

/-- And it is not mounted afterwards, unless it is the controller of one of the directories. -/
theorem unmounted_after (hdirect : p.filesystem = .direct)
    (hdone : p.provisionEach owner paths h = .ok () h₁) (hnot : q ∉ paths ∧ q.parent ∉ paths)
    (hunmounted : h.tree.Unmounted q) : h₁.tree.Unmounted q := by
  obtain ⟨-, hentries⟩ := entries_of_provisionEach hdirect hdone
  have habsent : ∀ r, r ∉ paths → h.tree.get? r = none → h₁.tree.get? r = none :=
    fun r hr hnone => by
      rw [← Option.not_isSome_iff_eq_none, hentries]
      rintro (hmem | hsome)
      · exact hr hmem
      · rw [hnone] at hsome
        exact nomatch hsome
  exact ⟨habsent _ hnot.1 hunmounted.1, habsent _ hnot.2 hunmounted.2⟩

end

/-- A refusal of the request that leaves something changed comes too late. -/
theorem tooLate_of_changed (hdirect : p.filesystem = .direct)
    (herror : p.provisionEach owner (groupPaths p.root group) h = .error e h')
    (hvalidation : e.isValidation = true) (hchanged : h'.tree ≠ h.tree) :
    TooLate p group owner h e := by
  obtain ⟨done, path, rest, h₁, hpaths, hdone, hlast⟩ := provisionEach_eq_error_iff.1 herror
  obtain ⟨before, others, hall, rfl, hothers⟩ := List.map_eq_append_iff.1 hpaths
  obtain ⟨c, after, rfl, rfl, -⟩ := List.map_eq_cons_iff.1 hothers
  -- an owner without a number is noticed at the first directory
  have hfirst : h₁.passwd.lookup owner = none → before = [] := by
    intro hnumber
    cases before with
    | nil => rfl
    | cons d before =>
        have hpasswd := (entries_of_provisionEach hdirect hdone).1
        exact absurd (hpasswd ▸ hnumber) (first_of_provisionEach hdirect hdone).2
  have hends := oneEnds_provisionOne hdirect owner (groupPath p.root group c) h₁
  rw [hlast] at hends
  cases hends with
  | unmounted hunmounted htree =>
      rw [htree] at hchanged
      exact .unmounted hall hdone hchanged (unmounted_before hdirect hdone hunmounted)
  | numberlessNew hnumber hmakeable htree =>
      obtain rfl := hfirst hnumber
      cases hdone
      cases hall
      exact .numberless hmakeable hnumber
  | numberlessOld hnumber hthere htree =>
      obtain rfl := hfirst hnumber
      cases hdone
      exact absurd htree hchanged
  | refused hlate hmounted hnumber =>
      rw [hlate] at hvalidation
      exact nomatch hvalidation

/-- Provisioning a group ends in a refusal of the request and leaves something changed exactly when
the refusal comes too late. -/
theorem tooLate_iff (hdirect : p.filesystem = .direct) :
    (∃ h', p.provisionEach owner (groupPaths p.root group) h = .error e h' ∧
      e.isValidation = true ∧ h'.tree ≠ h.tree) ↔ TooLate p group owner h e := by
  refine ⟨fun ⟨h', herror, hvalidation, hchanged⟩ =>
    tooLate_of_changed hdirect herror hvalidation hchanged, fun hlate => ?_⟩
  cases hlate with
  | numberless hmakeable hnumber =>
      obtain ⟨h', hone, htree⟩ := provisionOne_of_numberless hdirect hmakeable hnumber
      refine ⟨h', bind_apply_of_error hone _, rfl, fun hsame => ?_⟩
      -- the directory that was made
      have hmade := congrArg (fun t : Tree => t.get? (groupPath p.root group .blkio))
        (htree.symm.trans hsame)
      simp only [Table.get?_put_self, hmakeable.1] at hmade
      cases hmade
  | @unmounted c before after h₁ hall hbefore hchanged hunmounted =>
      have hnot := not_mem_before hdirect hall hbefore hunmounted
      obtain ⟨h', hone, htree⟩ := provisionOne_of_unmounted hdirect owner
        (unmounted_after hdirect hbefore hnot hunmounted)
      refine ⟨h', ?_, rfl, htree ▸ hchanged⟩
      rw [provisionEach_eq_error_iff]
      refine ⟨_, _, after.map (groupPath p.root group), h₁, ?_, hbefore, hone⟩
      rw [groupPaths, hall, List.map_append, List.map_cons]

end CgroupProvisioner

/-! ## A whole run by direct calls -/

namespace CgroupProvisioner

theorem failsLate_treeOwnerOf (path : Path) : FailsLate (CgroupFilesystem.treeOwnerOf path) := by
  refine (raises_entryAt (fun _ => rfl) path).bind fun n => ?_
  cases n with
  | none => exact raises_pure _
  | some n => exact (raises_get.bind fun _ => raises_pure _).bind fun _ => raises_pure _

theorem failsLate_notOwned {p : CgroupProvisioner} (hdirect : p.filesystem = .direct)
    (owner : String) : ∀ specs : List CgroupSpec, FailsLate (p.notOwned owner specs)
  | [] => raises_pure _
  | s :: rest => by
      refine Raises.bind ?_ fun _ => (failsLate_notOwned hdirect owner rest).bind fun _ =>
        raises_pure _
      rw [hdirect]
      exact failsLate_treeOwnerOf _

/-- A group is without a name only by a failure of another kind. -/
theorem isValidation_of_forGroup {group : String} {e : Fault}
    (hgroup : CgroupSpec.forGroup group = .error e) : e.isValidation = false := by
  unfold CgroupSpec.forGroup at hgroup
  split at hgroup
  · cases hgroup
    rfl
  · cases hgroup

theorem failsLate_verify {p : CgroupProvisioner} (hdirect : p.filesystem = .direct)
    (group owner : String) : FailsLate (p.verify group owner) :=
  (raises_ofExcept fun _ => isValidation_of_forGroup).bind fun specs =>
    failsLate_notOwned hdirect owner specs

end CgroupProvisioner

namespace Orchestrator

variable {o : Orchestrator} {identities : IdentityStore} {config : Config} {request : Request}
  {s : Session}

/-- The group of a request comes to be provisioned for an owner, from the host `h` on: the run has
begun, the owner is an account, and the group has a name. -/
def Provisions (o : Orchestrator) (identities : IdentityStore) (config : Config)
    (request : Request) (s : Session) (owner : String) (h : Host) : Prop :=
  ∃ i h₁ h₂, o.Begins request s h₁ ∧ identities.resolve request.cgroupOwner h₁ = .ok i h₂ ∧
    i.name = owner ∧
    (Capability.provisioner identities .direct config).ownerIsKnown owner
      (h₂.logged .info .platform (Capability.groupNotice config request owner)) = .ok true h ∧
    Capability.groupOf config request ≠ ""

/-- Whoever is asked leaves the programs alone. -/
def ConfirmKeepsPrograms (o : Orchestrator) (request : Request) : Prop :=
  ∀ h, ((o.confirm request).hostAfter h).programs = h.programs

/-- A run begins with the file tree that it found, and with accounts that can be looked up in it. -/
theorem tree_of_begins (hlooks : o.capability.identities.LooksOnly s.host)
    (hkeeps : o.ConfirmKeepsStores request) (hprograms : o.ConfirmKeepsPrograms request) {h : Host}
    (hbegins : o.Begins request s h) :
    h.tree = s.host.tree ∧ o.capability.identities.LooksOnly h := by
  have hstores := (stores_eq_of_confirm hlooks hkeeps).1 h hbegins
  have hsame := (view_eq_of_confirm Host.programs
    (fun _ hlooked => hlooked.programs_eq) hprograms).1 h hbegins
  exact ⟨congrArg Stores.tree hstores, hlooks.of_programs hsame⟩

/-- Resolving the owner and looking at the account leave the file tree alone. -/
theorem tree_of_known {owner : Identity} {known : Bool} {h h₁ h₂ : Host}
    (hlooks : identities.LooksOnly h)
    (hresolve : identities.resolve request.cgroupOwner h = .ok owner h₁)
    (hknown : (Capability.provisioner identities .direct config).ownerIsKnown owner.name
      (h₁.logged .info .platform (Capability.groupNotice config request owner.name)) =
        .ok known h₂) : h₂.tree = h.tree := by
  have hlooked := (IdentityStore.looked_resolve identities request.cgroupOwner).of_ok hresolve
  have hlooked' := (CgroupProvisioner.looked_ownerIsKnown
    (p := Capability.provisioner identities .direct config) rfl owner.name).of_ok hknown
  have hlooks' : identities.LooksOnly
      (h₁.logged .info .platform (Capability.groupNotice config request owner.name)) :=
    (hlooked.looksOnly hlooks).of_programs rfl
  exact (hlooked'.tree_eq hlooks').trans (hlooked.tree_eq hlooks)

/-- A run ends as the provisioning of its directories does, when that fails. -/
theorem run_of_provisions (hlinux : o.capability = .linux identities .direct config)
    {owner : String} {h h' : Host} {e : Fault}
    (hprovisions : o.Provisions identities config request s owner h)
    (heach : (Capability.provisioner identities .direct config).provisionEach owner
      (groupPaths config.cgroupRoot (Capability.groupOf config request)) h = .error e h') :
    ∃ r, o.run request s = .error e ⟨h', r⟩ := by
  obtain ⟨i, h₁, h₂, hbegins, hresolve, rfl, hknown, hnamed⟩ := hprovisions
  have hprovision := CgroupProvisioner.provision_of_known hknown
    (CgroupSpec.forGroup_of_ne hnamed)
  have hprovision' : (Capability.provisioner identities .direct config).provision
      (Capability.groupOf config request) i.name
      (h₂.logged .info .platform (Capability.groupNotice config request i.name)) = .error e h' :=
    hprovision.trans (bind_apply_of_error heach _)
  have hgroup := (Capability.provisionGroup_of_resolve hresolve
    { platform := o.capability.name }).trans (Step.ofRun_bind_of_error hprovision' _)
  have happly := (apply_linux_eq hlinux (windowsOptions_of_begins hlinux hbegins) h₁
    { platform := o.capability.name }).trans (bind_eq_of_error hgroup _)
  rw [run_eq_of_begins hbegins, happly]
  exact ⟨_, rfl⟩

/-- Of the steps of a group only its directories can end in a refusal of the request and leave the
file tree changed. -/
theorem directories_of_refusal {h : Host} {r : Report} {e : Fault} {p : Progress}
    (hends : Capability.GroupEnds identities .direct config request h r (.error e p))
    (hlooks : identities.LooksOnly h) (hvalidation : e.isValidation = true)
    (hchanged : p.host.tree ≠ h.tree) :
    ∃ i h₁ h₂, identities.resolve request.cgroupOwner h = .ok i h₁ ∧
      (Capability.provisioner identities .direct config).ownerIsKnown i.name
        (h₁.logged .info .platform (Capability.groupNotice config request i.name)) = .ok true h₂ ∧
      Capability.groupOf config request ≠ "" ∧
      (Capability.provisioner identities .direct config).provisionEach i.name
        (groupPaths config.cgroupRoot (Capability.groupOf config request)) h₂ = .error e p.host := by
  have hlooked := IdentityStore.looked_resolve identities request.cgroupOwner
  cases hends with
  | ownerless hresolve => exact absurd ((hlooked.of_error hresolve).tree_eq hlooks) hchanged
  | @unprovisioned i e h₁ h₂ hresolve hprovision =>
      have hresolved := hlooked.of_ok hresolve
      have hlooks' : identities.LooksOnly
          (h₁.logged .info .platform (Capability.groupNotice config request i.name)) :=
        (hresolved.looksOnly hlooks).of_programs rfl
      have hasked := CgroupProvisioner.looked_ownerIsKnown
        (p := Capability.provisioner identities .direct config) rfl i.name
      have hends := hprovision ▸ CgroupProvisioner.provisionEnds_provision _ _ _ _
      cases hends with
      | unasked hknown =>
          exact absurd (((hasked.of_error hknown).tree_eq hlooks').trans
            (hresolved.tree_eq hlooks)) hchanged
      | unknown hknown => exact absurd (tree_of_known hlooks hresolve hknown) hchanged
      | unnamed hknown hgroup => exact absurd (tree_of_known hlooks hresolve hknown) hchanged
      | failed hknown hgroup heach =>
          exact ⟨i, h₁, _, hresolve, hknown, ne_empty_of_forGroup hgroup, heach⟩
  | unverified hresolve hprovision hverify =>
      have hlate : e.isValidation = false :=
        CgroupProvisioner.failsLate_verify rfl _ _ _ _ _ hverify.2
      rw [hvalidation] at hlate
      exact nomatch hlate
  | misowned hresolve hprovision hverify hne => exact nomatch hvalidation

/-- **Refusals of the request after a change.**  A run for an isolation group by direct calls ends in
the refusal `e` and leaves the file tree changed exactly when its group came to be provisioned and
`e` came up too late. -/
theorem group_refusal_changed_iff (hlinux : o.capability = .linux identities .direct config)
    (hlooks : identities.LooksOnly s.host) (hkeeps : o.ConfirmKeepsStores request)
    (hprograms : o.ConfirmKeepsPrograms request) (e : Fault) :
    (∃ s', o.run request s = .error e s' ∧ e.isValidation = true ∧
        s'.host.tree ≠ s.host.tree) ↔
      ∃ owner h, o.Provisions identities config request s owner h ∧
        TooLate (Capability.provisioner identities .direct config)
          (Capability.groupOf config request) owner h e := by
  have hlooks' : o.capability.identities.LooksOnly s.host := by rw [hlinux]; exact hlooks
  have htree : ∀ {owner h}, o.Provisions identities config request s owner h →
      h.tree = s.host.tree := by
    rintro owner h ⟨i, h₁, h₂, hbegins, hresolve, rfl, hknown, -⟩
    obtain ⟨hsame, hlooks₁⟩ := tree_of_begins hlooks' hkeeps hprograms hbegins
    rw [hlinux] at hlooks₁
    exact (tree_of_known hlooks₁ hresolve hknown).trans hsame
  constructor
  · rintro ⟨s', hrun, hvalidation, hchanged⟩
    have hends := endsGroup_run hlinux request s
    rw [hrun] at hends
    cases hends with
    | unbegun hended =>
        have hstores := (stores_eq_of_confirm hlooks' hkeeps).2 _ _ hended
        exact absurd (congrArg Stores.tree hstores) hchanged
    | @failed _ h p hbegins hgroup =>
        obtain ⟨hsame, hlooks₁⟩ := tree_of_begins hlooks' hkeeps hprograms hbegins
        rw [hlinux] at hlooks₁
        rw [← hsame] at hchanged
        obtain ⟨i, h₁, h₂, hresolve, hknown, hnamed, heach⟩ :=
          directories_of_refusal hgroup hlooks₁ hvalidation hchanged
        have hprovisions : o.Provisions identities config request s i.name h₂ :=
          ⟨i, h, h₁, hbegins, hresolve, rfl, hknown, hnamed⟩
        refine ⟨i.name, h₂, hprovisions, (CgroupProvisioner.tooLate_iff rfl).1
          ⟨p.host, heach, hvalidation, ?_⟩⟩
        rwa [tree_of_known hlooks₁ hresolve hknown]
  · rintro ⟨owner, h, hprovisions, hlate⟩
    obtain ⟨h', heach, hvalidation, hchanged⟩ := (CgroupProvisioner.tooLate_iff rfl).2 hlate
    obtain ⟨r, hrun⟩ := run_of_provisions hlinux hprovisions heach
    exact ⟨_, hrun, hvalidation, htree hprovisions ▸ hchanged⟩

/-- A host on which of all controllers only `blkio` is mounted. -/
def blkioHost : Host where
  passwd := [("root", 0), ("runner", 1000)]
  login := .ok "runner"
  tree := .ofRows
    [(Path.ofString "/", {}), (Path.ofString "/cg", {}), (Path.ofString "/cg/blkio", {})]

/-- Runs for groups by direct calls, all of them confirmed. -/
def onGroupTree : Orchestrator where
  capability := .linux .posix .direct { cgroupRoot := Path.ofString "/cg" }
  confirmation := some (fixedAnswer true [])

theorem onGroupTree_keepsStores (request : Request) : onGroupTree.ConfirmKeepsStores request := by
  refine confirmKeepsStores_of_looksOnly (o := onGroupTree) (fun _ => trivial) ?_ request
  rintro ask ⟨⟩ q h
  exact stores_fixedAnswer true q h

theorem onGroupTree_keepsPrograms (request : Request) :
    onGroupTree.ConfirmKeepsPrograms request := by
  refine leads_confirm (R := SameBy Host.programs) (fun h h' hlooked => hlooked.programs_eq) ?_
    (fun e h => rfl) request
  rintro ask ⟨⟩ q h
  rfl

/-- The directory for `blkio` is made, and then `cpuacct` is not mounted. -/
theorem group_refusal_changed_iff_blkio :
    ∃ s', onGroupTree.run {} ⟨blkioHost, none⟩ =
        .error (CgroupFilesystem.notMounted (Path.ofString "/cg/cpuacct/sp")) s' ∧
      s'.host.tree ≠ blkioHost.tree := by
  let config : Config := { cgroupRoot := Path.ofString "/cg" }
  let p := Capability.provisioner .posix .direct config
  obtain ⟨h, hprovisions, ⟨u, h₁, hbefore, hmounted⟩, hunmounted⟩ : ∃ h,
      onGroupTree.Provisions .posix config {} ⟨blkioHost, none⟩ "runner" h ∧
        (∃ u h₁, p.provisionEach "runner" [groupPath p.root "sp" .blkio] h = .ok u h₁ ∧
          h₁.tree ≠ h.tree) ∧
        h.tree.Unmounted (groupPath p.root "sp" .cpuacct) :=
    ⟨_, ⟨_, _, _, rfl, rfl, rfl, rfl, by decide⟩, by decide +kernel, by
      constructor <;> decide +kernel⟩
  have hlate : TooLate p "sp" "runner" h
      (CgroupFilesystem.notMounted (groupPath p.root "sp" .cpuacct)) :=
    @TooLate.unmounted p "sp" "runner" h .cpuacct [.blkio] _ h₁ rfl hbefore hmounted hunmounted
  obtain ⟨s', hrun, -, hchanged⟩ := (group_refusal_changed_iff (o := onGroupTree) rfl trivial
    (onGroupTree_keepsStores {}) (onGroupTree_keepsPrograms {}) _).2
      ⟨"runner", h, hprovisions, hlate⟩
  have hpath : groupPath p.root "sp" .cpuacct = Path.ofString "/cg/cpuacct/sp" := by
    decide +kernel
  exact ⟨s', hpath ▸ hrun, hchanged⟩

/-- A refusal of the request may leave a directory behind that now belongs to the operator. -/
theorem not_untouched_after_group_refusal :
    ¬ ∀ (o : Orchestrator) (identities : IdentityStore) (config : Config) (request : Request)
        (s : Session), o.capability = .linux identities .direct config →
      identities.LooksOnly s.host → o.ConfirmKeepsStores request →
      o.ConfirmKeepsPrograms request →
      ∀ e s', o.run request s = .error e s' → e.isValidation = true →
        s'.host.tree = s.host.tree := by
  intro huntouched
  obtain ⟨e, s', hrun, hvalidation, hgiven⟩ : ∃ e s',
      onGroupTree.run {} ⟨blkioHost, none⟩ = .error e s' ∧ e.isValidation = true ∧
        (s'.host.tree.get? (Path.ofString "/cg/blkio/sp")).map Node.uid = some 1000 := by
    decide +kernel
  have hsame := huntouched onGroupTree .posix _ {} ⟨blkioHost, none⟩ rfl trivial
    (onGroupTree_keepsStores {}) (onGroupTree_keepsPrograms {}) e s' hrun hvalidation
  rw [hsame] at hgiven
  exact absurd hgiven (by decide +kernel)

end Orchestrator

end Provisioning
