/-
# `Provisioning.Proofs.Cgroup.Usable` — what verifying leaves open

A group is usable by its owner when each of its paths is a directory with the
number of the owner.  Verifying by direct calls looks at less: that there is an
entry at each path, and that its number is shown as the owner's name.

    at the path                                               verifying
    a directory with the owner's number                       passes
    a file with the owner's number                            passes
    a number of another line of the database for the owner    passes
    a number that nobody has, the numeral of which is
      the owner's name                                        passes
    nothing, or a number shown as another name                is listed

**Stated here.**  These are the only two ways to pass without being usable, and
of the two a run leaves only the first, at a path that held a file before it
(`verified_is_usable_iff`).
-/
import Provisioning.Proofs.Cgroup.Verified

namespace Provisioning

open Run

namespace Host

/-- A number is taken for the owner's, who has another one. -/
def Impersonates (h : Host) (owner : String) (uid : Int) : Prop :=
  h.passwd.lookup owner ≠ some uid ∧
    (h.NamesFirst owner uid ∨ (∀ u ∈ h.passwd, u.2 ≠ uid) ∧ toString uid = owner)

/-- There is a directory at a path, with the owner's number. -/
def Usable (h : Host) (owner : String) (path : Path) : Prop :=
  ∃ n, h.tree.get? path = some n ∧ n.type = .directory ∧ h.passwd.lookup owner = some n.uid

variable {h : Host} {owner : String} {path : Path} {n : Node}

/-- What is shown as the owner's has the owner's number, or one that is taken for it. -/
theorem lookup_eq_iff_not_impersonates {uid : Int} (hshown : h.shownAs uid = owner) :
    h.passwd.lookup owner = some uid ↔ ¬ h.Impersonates owner uid := by
  have hways := shownAs_eq_iff.1 hshown
  constructor
  · rintro hnumber ⟨hother, -⟩
    exact hother hnumber
  · intro hnot
    by_cases hnumber : h.passwd.lookup owner = some uid
    · exact hnumber
    · exact absurd ⟨hnumber, hways⟩ hnot

/-- An entry shown as the owner's is usable unless it is a file or its number is another's. -/
theorem usable_iff_of_shown (hthere : h.tree.get? path = some n)
    (hshown : h.shownAs n.uid = owner) :
    h.Usable owner path ↔ n.type ≠ .file ∧ ¬ h.Impersonates owner n.uid := by
  have hdirectory : n.type = .directory ↔ n.type ≠ .file := by cases n.type <;> decide
  rw [← lookup_eq_iff_not_impersonates hshown, ← hdirectory]
  constructor
  · rintro ⟨m, hm, htype, hnumber⟩
    rw [hthere] at hm
    cases hm
    exact ⟨htype, hnumber⟩
  · rintro ⟨htype, hnumber⟩
    exact ⟨n, hthere, htype, hnumber⟩

end Host

namespace CgroupProvisioner

variable {p : CgroupProvisioner} {group owner : String} {h : Host}

/-- By direct calls, nothing is listed exactly when every entry is shown as the owner's. -/
theorem verify_direct_eq_nil_iff (hdirect : p.filesystem = .direct) (hgroup : group ≠ "") :
    p.verify group owner h = .ok [] h ↔
      ∀ path ∈ groupPaths p.root group,
        ∃ n, h.tree.get? path = some n ∧ n.denies.stat = false ∧ h.shownAs n.uid = owner := by
  rw [verify_eq_nil_iff hgroup, hdirect]
  exact forall₂_congr fun path _ => CgroupFilesystem.treeOwnerOf_eq_some_iff

end CgroupProvisioner

namespace Orchestrator

variable {o : Orchestrator} {identities : IdentityStore} {config : Config} {request : Request}
  {s s' : Session} {report : Report}

/-- A run that returned left every path to the owner, and made nothing of what was a file. -/
theorem given_of_run (hlinux : o.capability = .linux identities .direct config)
    (hlooks : identities.LooksOnly s.host) (hkeeps : o.ConfirmKeepsStores request)
    (hprograms : o.ConfirmKeepsPrograms request) (hrun : o.run request s = .ok report s') :
    ∃ owner, report.target = some owner ∧
      ∀ path ∈ groupPaths config.cgroupRoot (Capability.groupOf config request),
        (∃ n, s'.host.tree.get? path = some n ∧
          s'.host.passwd.lookup owner.name = some n.uid) ∧
        (s'.host.tree.typeAt path = some .file ↔ s.host.tree.typeAt path = some .file) := by
  have hlooks' : o.capability.identities.LooksOnly s.host := by rw [hlinux]; exact hlooks
  have hends := endsGroup_run hlinux request s
  rw [hrun] at hends
  cases hends with
  | @returned h p hbegins hgroup =>
      obtain ⟨hsame, hlooks₁⟩ := tree_of_begins hlooks' hkeeps hprograms hbegins
      rw [hlinux] at hlooks₁
      cases hgroup with
      | @provisioned owner paths h₁ h₂ hresolve hprovision hverify =>
          obtain ⟨-, uid, h₃, hnumber, hpasswd, hknown, hadvances, hbelongs⟩ :=
            CgroupProvisioner.belongs_of_provision rfl hprovision
          have hbefore : h₃.tree = s.host.tree :=
            (tree_of_known hlooks₁ hresolve hknown).trans hsame
          refine ⟨owner, rfl, fun path hpath => ⟨?_, ?_⟩⟩
          · obtain ⟨n, hthere, -, rfl⟩ := hbelongs path hpath
            exact ⟨n, hthere, hpasswd ▸ hnumber⟩
          · rw [← hbefore]
            exact hadvances.typeAt_eq_file_iff

/-- **What is verified, and what can be used.**  By direct calls, verifying finds nothing wrong
exactly when every entry may be looked at and is shown as the owner's.  Then the group is usable
unless an entry is a file or has a number that is taken for the owner's.  What a run returns from
has the owner's number, and is usable unless one of the paths held a file before the run. -/
theorem verified_is_usable_iff (p : CgroupProvisioner) (hdirect : p.filesystem = .direct)
    (hlinux : o.capability = .linux identities .direct config) :
    (∀ group owner h, group ≠ "" →
      (p.verify group owner h = .ok [] h ↔
        ∀ path ∈ groupPaths p.root group,
          ∃ n, h.tree.get? path = some n ∧ n.denies.stat = false ∧ h.shownAs n.uid = owner) ∧
      (p.verify group owner h = .ok [] h →
        ((∀ path ∈ groupPaths p.root group, h.Usable owner path) ↔
          ∀ path ∈ groupPaths p.root group, ∀ n, h.tree.get? path = some n →
            n.type ≠ .file ∧ ¬ h.Impersonates owner n.uid))) ∧
    ∀ request s report s', identities.LooksOnly s.host → o.ConfirmKeepsStores request →
      o.ConfirmKeepsPrograms request → o.run request s = .ok report s' →
      ∃ owner, report.target = some owner ∧
        (∀ path ∈ groupPaths config.cgroupRoot (Capability.groupOf config request),
          ∃ n, s'.host.tree.get? path = some n ∧
            s'.host.passwd.lookup owner.name = some n.uid) ∧
        ((∀ path ∈ groupPaths config.cgroupRoot (Capability.groupOf config request),
            s'.host.Usable owner.name path) ↔
          ∀ path ∈ groupPaths config.cgroupRoot (Capability.groupOf config request),
            s.host.tree.typeAt path ≠ some .file) := by
  constructor
  · intro group owner h hgroup
    have hnothing :=
      @CgroupProvisioner.verify_direct_eq_nil_iff p group owner h hdirect hgroup
    refine ⟨hnothing, fun hverify => ?_⟩
    constructor
    · intro husable path hpath n hthere
      obtain ⟨m, hm, -, hshown⟩ := hnothing.1 hverify path hpath
      rw [hthere] at hm
      cases hm
      exact (Host.usable_iff_of_shown hthere hshown).1 (husable path hpath)
    · intro hproper path hpath
      obtain ⟨n, hthere, -, hshown⟩ := hnothing.1 hverify path hpath
      exact (Host.usable_iff_of_shown hthere hshown).2 (hproper path hpath n hthere)
  · intro request s report s' hlooks hkeeps hprograms hrun
    obtain ⟨owner, htarget, hgiven⟩ := given_of_run hlinux hlooks hkeeps hprograms hrun
    refine ⟨owner, htarget, fun path hpath => (hgiven path hpath).1, ?_⟩
    refine forall₂_congr fun path hpath => ?_
    obtain ⟨⟨n, hthere, hnumber⟩, hfile⟩ := hgiven path hpath
    rw [ne_eq, ← hfile, Tree.typeAt, hthere]
    constructor
    · rintro ⟨m, hm, htype, -⟩ hisFile
      rw [hthere] at hm
      cases hm
      rw [Option.map_some, htype] at hisFile
      exact nomatch hisFile
    · intro hnot
      refine ⟨n, hthere, ?_, hnumber⟩
      cases htype : n.type with
      | directory => rfl
      | file => exact absurd (congrArg some htype) hnot

/-- All controllers hold an entry of the group `sp` with the operator's number; that of `blkio` may
be a file. -/
def groupHost (type : EntryType) : Host where
  passwd := [("root", 0), ("runner", 1000)]
  login := .ok "runner"
  tree := .ofRows
    [(Path.ofString "/cg/blkio/sp", { type, uid := 1000 }),
      (Path.ofString "/cg/cpuacct/sp", { uid := 1000 }),
      (Path.ofString "/cg/memory/sp", { uid := 1000 }),
      (Path.ofString "/cg/pids/sp", { uid := 1000 }),
      (Path.ofString "/cg/freezer/sp", { uid := 1000 })]

theorem verify_groupHost (type : EntryType) :
    treeProvisioner.verify "sp" "runner" (groupHost type) = .ok [] (groupHost type) := by
  have hentries : ∀ path ∈ groupPaths (Path.ofString "/cg") "sp",
      (groupHost type).ownerShown path = some "runner" ∧
        ∀ n, (groupHost type).tree.get? path = some n → n.denies.stat = false := by
    cases type <;> decide +kernel
  rw [CgroupProvisioner.verify_direct_eq_nil_iff rfl (by decide)]
  intro path hpath
  obtain ⟨hshown, hseen⟩ := hentries path hpath
  obtain ⟨n, hthere, hname⟩ := Option.map_eq_some_iff.1 hshown
  exact ⟨n, hthere, hseen n hthere, hname⟩

/-- Five directories with the operator's number pass and are usable, and so is what a run leaves
where there was nothing. -/
theorem verified_is_usable_iff_runner :
    (∀ path ∈ groupPaths treeProvisioner.root "sp",
      (groupHost .directory).Usable "runner" path) ∧
    ∃ report s', onGroupTree.run {} ⟨runnerHost, none⟩ = .ok report s' ∧
      ∀ path ∈ groupPaths (Path.ofString "/cg") "sp",
        s'.host.Usable "runner" path := by
  obtain ⟨hverified, hruns⟩ :=
    @verified_is_usable_iff onGroupTree .posix { cgroupRoot := Path.ofString "/cg" }
      treeProvisioner rfl rfl
  constructor
  · refine ((hverified "sp" "runner" _ (by decide)).2 (verify_groupHost .directory)).2 ?_
    have hentries : ∀ path ∈ groupPaths treeProvisioner.root "sp",
        ∀ n, (groupHost .directory).tree.get? path = some n →
          n.type ≠ .file ∧ (groupHost .directory).passwd.lookup "runner" = some n.uid := by
      decide +kernel
    intro path hpath n hthere
    obtain ⟨htype, hnumber⟩ := hentries path hpath n hthere
    exact ⟨htype, fun hother => hother.1 hnumber⟩
  · obtain ⟨report, s', hrun, hnamed⟩ : ∃ report s',
        onGroupTree.run {} ⟨runnerHost, none⟩ = .ok report s' ∧
          report.target.map Identity.name = some "runner" := by decide +kernel
    obtain ⟨owner, htarget, -, husable⟩ := hruns {} ⟨runnerHost, none⟩ report s' trivial
      (onGroupTree_keepsStores {}) (onGroupTree_keepsPrograms {}) hrun
    rw [htarget, Option.map_some, Option.some.injEq] at hnamed
    rw [hnamed] at husable
    exact ⟨report, s', hrun, husable.2 (by decide +kernel)⟩

/-- A file in the place of a directory passes. -/
theorem not_always_usable :
    ¬ ∀ (p : CgroupProvisioner) (group owner : String) (h : Host), p.filesystem = .direct →
      group ≠ "" → p.verify group owner h = .ok [] h →
      ∀ path ∈ groupPaths p.root group, h.Usable owner path := by
  intro husable
  have hblkio : Path.ofString "/cg/blkio/sp" ∈ groupPaths treeProvisioner.root "sp" := by
    decide +kernel
  obtain ⟨n, hthere, htype, -⟩ := husable treeProvisioner "sp" "runner" (groupHost .file) rfl
    (by decide) (verify_groupHost .file) _ hblkio
  have hfile : ∀ m, (groupHost .file).tree.get? (Path.ofString "/cg/blkio/sp") = some m →
      m.type = .file := by decide +kernel
  rw [hfile n hthere] at htype
  exact nomatch htype

end Orchestrator

end Provisioning
