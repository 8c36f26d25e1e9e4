/-
# `Provisioning.Proofs.Cgroup.Verified` — what verifying says of what was just provisioned

Provisioning goes from the name of the owner to a number, and verifying goes
back from the number of an entry to a name: that of the first user who has the
number, or the number itself if nobody has it.  For the directories that were
just given away the two agree unless several users share a number.

    users with 1000    given to    shown as    verifying
    ada                ada         ada         finds nothing wrong
    ada, bob           ada         ada         finds nothing wrong
    ada, bob           bob         ada         lists all controllers

**Stated here.**  What verifying answers, whichever way the hierarchy is
touched (`verify_eq_nil_iff`), and by direct calls exactly when it accepts what
was just provisioned (`provisioned_is_verified_iff`).
-/
import Provisioning.Proofs.Cgroup.Turn
import Provisioning.Proofs.Cgroup.Validation

namespace Provisioning

open Run

/-! ## Names of numbers -/

namespace Host

/-- Of the users who have the number, the owner comes first. -/
def NamesFirst (h : Host) (owner : String) (uid : Int) : Prop :=
  h.passwd.find? (fun u => u.2 == uid) = some (owner, uid)

instance (h : Host) (owner : String) (uid : Int) : Decidable (h.NamesFirst owner uid) :=
  inferInstanceAs (Decidable (_ = _))

/-- The name that a number is shown under: that of the first user who has it, or the number. -/
def shownAs (h : Host) (uid : Int) : String :=
  ((h.passwd.find? fun u => u.2 == uid).map Prod.fst).getD (toString uid)

/-- The name that the owner of an entry is shown under, if there is an entry. -/
def ownerShown (h : Host) (path : Path) : Option String :=
  (h.tree.get? path).map fun n => h.shownAs n.uid

variable {h : Host} {owner : String} {uid : Int}

/-- A number is shown under a name that comes first for it, or is its numeral and nobody has it. -/
theorem shownAs_eq_iff :
    h.shownAs uid = owner ↔
      h.NamesFirst owner uid ∨ (∀ u ∈ h.passwd, u.2 ≠ uid) ∧ toString uid = owner := by
  unfold shownAs NamesFirst
  cases hfound : h.passwd.find? fun u => u.2 == uid with
  | none =>
      have hnobody : ∀ u ∈ h.passwd, u.2 ≠ uid := by simpa using hfound
      constructor
      · intro hshown
        exact .inr ⟨hnobody, hshown⟩
      · rintro (hfirst | ⟨-, hshown⟩)
        · exact nomatch hfirst
        · exact hshown
  | some u =>
      obtain ⟨name, number⟩ := u
      have hnumber : number = uid := by simpa using List.find?_some hfound
      subst hnumber
      constructor
      · rintro rfl
        exact .inl rfl
      · rintro (hfirst | ⟨hnobody, -⟩)
        · exact congrArg Prod.fst (Option.some.inj hfirst)
        · exact absurd rfl (hnobody _ (List.mem_of_find?_eq_some hfound))

theorem mem_passwd_of_lookup (hnumber : h.passwd.lookup owner = some uid) :
    (owner, uid) ∈ h.passwd := by
  obtain ⟨before, after, hrows, -⟩ := List.lookup_eq_some_iff.1 hnumber
  rw [hrows]
  exact List.mem_append_right _ List.mem_cons_self

/-- The number of a user is shown under the user's name if no other user with it comes first. -/
theorem shownAs_eq_iff_of_lookup (hnumber : h.passwd.lookup owner = some uid) :
    h.shownAs uid = owner ↔ h.NamesFirst owner uid := by
  rw [shownAs_eq_iff]
  refine or_iff_left ?_
  rintro ⟨hnobody, -⟩
  exact hnobody _ (mem_passwd_of_lookup hnumber) rfl

end Host

/-! ## Looking at an owner -/

namespace CgroupFilesystem

variable {path : Path} {h h' : Host} {shown : Option String}

theorem treeOwnerOf_of_not_hidden (hnot : ¬ h.tree.Hidden path) :
    treeOwnerOf path h = .ok (h.ownerShown path) h := by
  unfold Host.ownerShown
  cases hthere : h.tree.get? path with
  | none => exact bind_apply_of_ok (entryAt_of_absent hthere) _
  | some n =>
      have hseen := (Tree.not_hidden_iff hthere).1 hnot
      exact bind_apply_of_ok (entryAt_of_seen hthere hseen) _

theorem treeOwnerOf_of_hidden (hhidden : h.tree.Hidden path) :
    ∃ e, treeOwnerOf path h = .error e h := by
  obtain ⟨n, hthere, hdenied⟩ := hhidden
  exact ⟨_, bind_apply_of_error (entryAt_of_hidden hthere hdenied) _⟩

theorem treeOwnerOf_eq_ok_iff :
    treeOwnerOf path h = .ok shown h ↔ ¬ h.tree.Hidden path ∧ h.ownerShown path = shown := by
  by_cases hhidden : h.tree.Hidden path
  · obtain ⟨e, hrefused⟩ := treeOwnerOf_of_hidden hhidden
    simp [hrefused, hhidden]
  · simp [treeOwnerOf_of_not_hidden hhidden, hhidden]

/-- An entry is shown as the owner's if it may be looked at and its number is shown as the owner. -/
theorem treeOwnerOf_eq_some_iff {owner : String} :
    treeOwnerOf path h = .ok (some owner) h ↔
      ∃ n, h.tree.get? path = some n ∧ n.denies.stat = false ∧ h.shownAs n.uid = owner := by
  rw [treeOwnerOf_eq_ok_iff, Host.ownerShown, Option.map_eq_some_iff]
  constructor
  · rintro ⟨hnot, n, hthere, hshown⟩
    exact ⟨n, hthere, (Tree.not_hidden_iff hthere).1 hnot, hshown⟩
  · rintro ⟨n, hthere, hseen, hshown⟩
    exact ⟨(Tree.not_hidden_iff hthere).2 hseen, n, hthere, hshown⟩

end CgroupFilesystem

/-! ## What verifying answers -/

namespace CgroupProvisioner

variable {p : CgroupProvisioner} {group owner : String} {h h' : Host}

/-- Of the directories whose owners are shown, those are listed that are shown as another's. -/
theorem notOwned_of_shown {shown : Path → Option String} :
    ∀ {specs : List CgroupSpec},
      (∀ s ∈ specs, p.filesystem.ownerOf (s.path p.root) h = .ok (shown (s.path p.root)) h) →
      p.notOwned owner specs h =
        .ok ((specs.filter fun s => shown (s.path p.root) ≠ some owner).map CgroupSpec.subsystem)
          h := by
  intro specs
  induction specs with
  | nil =>
      intro _
      rfl
  | cons s rest ih =>
      intro hshown
      have hrest := ih fun s' hs' => hshown s' (List.mem_cons_of_mem _ hs')
      unfold notOwned
      rw [bind_apply_of_ok (hshown s List.mem_cons_self), bind_apply_of_ok hrest]
      by_cases howned : shown (s.path p.root) = some owner
      · simp [howned]
      · simp [howned]

/-- Nothing is listed exactly when every directory is shown as the owner's. -/
theorem notOwned_eq_nil_iff :
    ∀ {specs : List CgroupSpec}, p.notOwned owner specs h = .ok [] h ↔
      ∀ s ∈ specs, p.filesystem.ownerOf (s.path p.root) h = .ok (some owner) h := by
  intro specs
  constructor
  · induction specs with
    | nil =>
        intro _ s hs
        exact absurd hs List.not_mem_nil
    | cons s rest ih =>
        intro hnone
        obtain ⟨found, h₁, hfound, hothers⟩ := bind_apply_eq_ok_iff.1 hnone
        obtain rfl := (p.filesystem.leads_ownerOf _).of_ok hfound
        obtain ⟨others, h₂, hrest, hlast⟩ := bind_apply_eq_ok_iff.1 hothers
        obtain rfl := (p.leads_notOwned owner rest).of_ok hrest
        have hlisted : (if found = some owner then others else s.subsystem :: others) = [] := by
          change EStateM.Result.ok _ _ = EStateM.Result.ok _ _ at hlast
          exact (EStateM.Result.ok.inj hlast).1
        split at hlisted
        · subst found others
          intro s' hs'
          rcases List.mem_cons.1 hs' with rfl | hs'
          · exact hfound
          · exact ih hrest s' hs'
        · exact nomatch hlisted
  · intro hall
    rw [@notOwned_of_shown p owner h (fun _ => some owner) specs hall]
    simp

theorem verify_of_named (hgroup : group ≠ "") :
    p.verify group owner = p.notOwned owner
      (CgroupSubsystem.all.map fun subsystem => { group, subsystem, named := hgroup }) := by
  unfold verify
  rw [CgroupSpec.forGroup_of_ne hgroup]
  rfl

/-- Of the directories of a group, those are listed that are not shown as the owner's. -/
theorem verify_of_shown {shown : Path → Option String} (hgroup : group ≠ "")
    (hshown : ∀ path ∈ groupPaths p.root group, p.filesystem.ownerOf path h = .ok (shown path) h) :
    p.verify group owner h = .ok
      (CgroupSubsystem.all.filter fun c => shown (groupPath p.root group c) ≠ some owner) h := by
  have hspecs : ∀ s ∈ CgroupSubsystem.all.map fun subsystem =>
      ({ group, subsystem, named := hgroup } : CgroupSpec),
      p.filesystem.ownerOf (s.path p.root) h = .ok (shown (s.path p.root)) h := by
    intro s hs
    obtain ⟨c, -, rfl⟩ := List.mem_map.1 hs
    exact hshown _ (mem_groupPaths.2 ⟨c, rfl⟩)
  rw [verify_of_named hgroup, notOwned_of_shown hspecs, List.filter_map, List.map_map]
  exact congrArg (EStateM.Result.ok · h) (List.map_id'' (fun _ => rfl) _)

/-- **What an empty answer says**, whichever way the hierarchy is touched: every directory of the
group is shown as the owner's. -/
theorem verify_eq_nil_iff (hgroup : group ≠ "") :
    p.verify group owner h = .ok [] h ↔
      ∀ path ∈ groupPaths p.root group, p.filesystem.ownerOf path h = .ok (some owner) h := by
  rw [verify_of_named hgroup, notOwned_eq_nil_iff, groupPaths, List.forall_mem_map,
    List.forall_mem_map]
  rfl

/-! ## What was provisioned by direct calls -/

/-- What was provisioned belongs to the owner, and nothing but making and giving away was done to
the tree on which the owner was known. -/
theorem belongs_of_provision (hdirect : p.filesystem = .direct) {paths : List Path}
    (hprovision : p.provision group owner h = .ok paths h') :
    group ≠ "" ∧ ∃ uid h₁, h.passwd.lookup owner = some uid ∧ h'.passwd = h.passwd ∧
      p.ownerIsKnown owner h = .ok true h₁ ∧ Tree.Advances uid h₁.tree h'.tree ∧
      ∀ path ∈ groupPaths p.root group, h'.tree.Belongs uid path := by
  have hends := p.provisionEnds_provision group owner h
  rw [hprovision] at hends
  cases hends with
  | @provisioned specs h₁ h₂ hknown hgroup heach =>
      have hsame : h₁.passwd = h.passwd :=
        (steady_ownerIsKnown (R := SameBy Host.passwd) p owner).of_ok hknown
      obtain ⟨uid, hnumber⟩ := Option.ne_none_iff_exists'.1 (first_of_provisionEach hdirect heach).2
      obtain ⟨hadvances, hbelongs⟩ := belongs_of_provisionEach hdirect heach hnumber
      exact ⟨ne_empty_of_forGroup hgroup, uid, h₁, hsame ▸ hnumber,
        (passwd_provision p group owner).of_ok hprovision, hknown, hadvances, hbelongs⟩

/-- What was provisioned is found to belong to its owner exactly when the owner is the first user
with that number; otherwise every directory is listed. -/
theorem verify_of_provision (hdirect : p.filesystem = .direct) {paths : List Path}
    (hprovision : p.provision group owner h = .ok paths h') :
    ∃ uid, h.passwd.lookup owner = some uid ∧
      p.verify group owner h' =
        .ok (if h.NamesFirst owner uid then [] else CgroupSubsystem.all) h' := by
  obtain ⟨hgroup, uid, -, hnumber, hpasswd, -, -, hbelongs⟩ :=
    belongs_of_provision hdirect hprovision
  refine ⟨uid, hnumber, ?_⟩
  have hsame : h'.shownAs uid = h.shownAs uid := by
    unfold Host.shownAs
    rw [hpasswd]
  have hshown : ∀ path ∈ groupPaths p.root group,
      p.filesystem.ownerOf path h' = .ok (some (h.shownAs uid)) h' := by
    intro path hpath
    rw [hdirect, ← hsame]
    obtain ⟨n, hthere, hseen, rfl⟩ := hbelongs path hpath
    exact CgroupFilesystem.treeOwnerOf_eq_some_iff.2 ⟨n, hthere, hseen, rfl⟩
  rw [@verify_of_shown p group owner h' (fun _ => some (h.shownAs uid)) hgroup hshown]
  by_cases hfirst : h.NamesFirst owner uid
  · rw [if_pos hfirst, (Host.shownAs_eq_iff_of_lookup hnumber).2 hfirst]
    simp
  · rw [if_neg hfirst]
    have hother : h.shownAs uid ≠ owner :=
      fun hshown => hfirst ((Host.shownAs_eq_iff_of_lookup hnumber).1 hshown)
    simp [hother]

end CgroupProvisioner

/-! ## Runs -/

namespace Orchestrator

variable {o : Orchestrator} {identities : IdentityStore} {filesystem : CgroupFilesystem}
  {config : Config} {request : Request} {s : Session}

/-- A run has provisioned its group for an owner, which left the host `h`. -/
def Provisioned (o : Orchestrator) (identities : IdentityStore) (filesystem : CgroupFilesystem)
    (config : Config) (request : Request) (s : Session) (owner : Identity) (h : Host) : Prop :=
  ∃ paths h₁ h₂, o.Begins request s h₁ ∧
    identities.resolve request.cgroupOwner h₁ = .ok owner h₂ ∧
    (Capability.provisioner identities filesystem config).provision
      (Capability.groupOf config request) owner.name
      (h₂.logged .info .platform (Capability.groupNotice config request owner.name)) = .ok paths h

/-- A run that has provisioned its group and verifies it ends by the answer. -/
theorem run_of_provisioned (hlinux : o.capability = .linux identities filesystem config)
    (hwanted : config.verifyCgroups = true) {owner : Identity} {h : Host}
    (hprovisioned : o.Provisioned identities filesystem config request s owner h)
    {wrong : List CgroupSubsystem}
    (hverify : (Capability.provisioner identities filesystem config).verify
      (Capability.groupOf config request) owner.name h = .ok wrong h) :
    (wrong = [] → ∃ report s', o.run request s = .ok report s') ∧
      (wrong ≠ [] →
        ∃ s', o.run request s =
          .error (Capability.misowned config request owner.name wrong) s') := by
  obtain ⟨paths, h₁, h₂, hbegins, hresolve, hprovision⟩ := hprovisioned
  have hgroup := @Capability.provisionGroup_of_resolve identities filesystem config request _ _ _
    hresolve { platform := o.capability.name }
  rw [Step.ofRun_bind_of_ok hprovision, Step.report_bind] at hgroup
  dsimp only at hgroup
  rw [if_pos hwanted, Step.ofRun_bind_of_ok hverify] at hgroup
  have happly := apply_linux_eq hlinux (windowsOptions_of_begins hlinux hbegins) h₁
    { platform := o.capability.name }
  constructor
  · rintro rfl
    rw [bind_eq_of_ok hgroup] at happly
    rw [run_eq_of_begins hbegins, happly]
    exact ⟨_, _, rfl⟩
  · intro hne
    have hnotEmpty : ¬ wrong.isEmpty = true := by simpa using hne
    rw [if_neg hnotEmpty] at hgroup
    rw [bind_eq_of_error hgroup] at happly
    rw [run_eq_of_begins hbegins, happly]
    exact ⟨_, rfl⟩

/-- **What was provisioned, verified.**  By direct calls, a group that was just provisioned is found
in order exactly when its owner is the first user with that number.  Of any other owner every
directory is listed, although it has the owner's number, and a run that verifies ends in a
refusal. -/
theorem provisioned_is_verified_iff (p : CgroupProvisioner) (hdirect : p.filesystem = .direct)
    (hlinux : o.capability = .linux identities .direct config)
    (hwanted : config.verifyCgroups = true) :
    (∀ group owner paths h h', p.provision group owner h = .ok paths h' →
      ∃ uid, h.passwd.lookup owner = some uid ∧
        p.verify group owner h' =
          .ok (if h.NamesFirst owner uid then [] else CgroupSubsystem.all) h') ∧
    ∀ request s owner h, o.Provisioned identities .direct config request s owner h →
      ∃ uid, h.passwd.lookup owner.name = some uid ∧
        (h.NamesFirst owner.name uid → ∃ report s', o.run request s = .ok report s') ∧
        (¬ h.NamesFirst owner.name uid →
          ∃ s', o.run request s =
            .error (Capability.misowned config request owner.name CgroupSubsystem.all) s') := by
  refine ⟨fun _ _ _ _ _ => CgroupProvisioner.verify_of_provision hdirect, ?_⟩
  intro request s owner h hprovisioned
  have hprovision := hprovisioned
  obtain ⟨paths, h₁, h₂, -, -, hprovision⟩ := hprovision
  obtain ⟨uid, hnumber, hverify⟩ := CgroupProvisioner.verify_of_provision rfl hprovision
  have hpasswd := (CgroupProvisioner.passwd_provision _ _ _).of_ok hprovision
  have hfirst : h.NamesFirst owner.name uid ↔
      (h₂.logged .info .platform (Capability.groupNotice config request owner.name)).NamesFirst
        owner.name uid := by
    unfold Host.NamesFirst
    rw [hpasswd]
  obtain ⟨hreturns, hrefused⟩ := run_of_provisioned hlinux hwanted hprovisioned hverify
  refine ⟨uid, hpasswd ▸ hnumber, fun hnames => ?_, fun hnames => ?_⟩
  · rw [hfirst] at hnames
    exact hreturns (if_pos hnames)
  · rw [hfirst] at hnames
    rw [if_neg hnames] at hrefused
    exact hrefused (List.cons_ne_nil _ _)

/-- A host on which all controllers are mounted, with some users. -/
def mountedHost (users : List (String × Int)) : Host where
  passwd := users
  login := .ok "runner"
  tree := .ofRows
    [(Path.ofString "/", {}), (Path.ofString "/cg", {}), (Path.ofString "/cg/blkio", {}),
      (Path.ofString "/cg/cpuacct", {}), (Path.ofString "/cg/memory", {}),
      (Path.ofString "/cg/pids", {}), (Path.ofString "/cg/freezer", {})]

/-- The operator has a number of their own. -/
def runnerHost : Host := mountedHost [("root", 0), ("runner", 1000)]

/-- The operator has the number of another user, who comes first. -/
def sharedHost : Host := mountedHost [("root", 0), ("admin", 1000), ("runner", 1000)]

/-- Provisions under `/cg` by direct calls. -/
def treeProvisioner : CgroupProvisioner := { filesystem := .direct, root := Path.ofString "/cg" }

/-- What is provisioned for an operator with a number of their own is found in order, and the run
returns. -/
theorem provisioned_is_verified_iff_runner :
    (∃ paths h', treeProvisioner.provision "sp" "runner" runnerHost = .ok paths h' ∧
      treeProvisioner.verify "sp" "runner" h' = .ok [] h') ∧
    ∃ report s', onGroupTree.run {} ⟨runnerHost, none⟩ = .ok report s' := by
  let config : Config := { cgroupRoot := Path.ofString "/cg" }
  obtain ⟨hprovisioner, hruns⟩ :=
    @provisioned_is_verified_iff onGroupTree .posix config treeProvisioner rfl rfl rfl
  constructor
  · obtain ⟨paths, h', hended, -⟩ : ∃ paths h',
        treeProvisioner.provision "sp" "runner" runnerHost = .ok paths h' ∧ paths.length = 5 := by
      decide +kernel
    obtain ⟨uid, hnumber, hverify⟩ := hprovisioner _ _ _ _ _ hended
    obtain rfl : (1000 : Int) = uid := Option.some.inj hnumber
    rw [if_pos (show runnerHost.NamesFirst "runner" 1000 by decide)] at hverify
    exact ⟨paths, h', hended, hverify⟩
  · obtain ⟨i, h₁, h₂, hbegins, hresolve, hname, paths, h, hended, hpasswd⟩ : ∃ i h₁ h₂,
        onGroupTree.Begins {} ⟨runnerHost, none⟩ h₁ ∧
        IdentityStore.posix.resolve none h₁ = .ok i h₂ ∧ i.name = "runner" ∧
        ∃ paths h, (Capability.provisioner .posix .direct config).provision "sp" i.name
            (h₂.logged .info .platform (Capability.groupNotice config {} i.name)) = .ok paths h ∧
          h.passwd = runnerHost.passwd := ⟨_, _, _, rfl, rfl, rfl, by decide +kernel⟩
    obtain ⟨uid, hnumber, hreturns, -⟩ := hruns {} ⟨runnerHost, none⟩ i h
      ⟨paths, h₁, h₂, hbegins, hresolve, hended⟩
    rw [hname, hpasswd] at hnumber
    obtain rfl : (1000 : Int) = uid := Option.some.inj hnumber
    refine hreturns ?_
    rw [hname, Host.NamesFirst, hpasswd]
    decide

/-- What is provisioned for an operator who shares a number is listed as another's. -/
theorem not_always_verified :
    ¬ ∀ (p : CgroupProvisioner) (group owner : String) (paths : List Path) (h h' : Host),
      p.filesystem = .direct → p.provision group owner h = .ok paths h' →
      p.verify group owner h' = .ok [] h' := by
  intro hverified
  obtain ⟨wrong, h₁, hboth, hwrong⟩ : ∃ wrong h₁,
      (treeProvisioner.provision "sp" "runner" >>= fun _ => treeProvisioner.verify "sp" "runner")
        sharedHost = .ok wrong h₁ ∧ wrong = CgroupSubsystem.all := by decide +kernel
  obtain ⟨paths, h', hprovision, hverify⟩ := bind_apply_eq_ok_iff.1 hboth
  rw [hverified treeProvisioner "sp" "runner" paths sharedHost h' rfl hprovision] at hverify
  cases hverify
  exact absurd hwrong (by decide)

end Orchestrator

end Provisioning
