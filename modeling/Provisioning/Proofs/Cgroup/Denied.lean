/-
# `Provisioning.Proofs.Cgroup.Denied` — which refused call ends a run, and how

By direct calls the turn of a directory is to look for it, to make it if nothing
is there, and to give it away, with the entries in it.  When all have had their
turn they are looked at once more, to verify.  The host may refuse any of these
calls for lack of rights, and the first call that it refuses ends the run.

    looking for a directory       bare error of the host
    making it                     permission denied
    giving it or an entry away    permission denied
    looking at it to verify       is not refused, if nothing was before

**Stated here.**  The turn of a directory fails for lack of rights exactly if one
of its calls is refused, with what the first such call comes to
(`provisionOne_denied_iff`), and so does a run (`refused_call_ends_run`).  The
bare error is what operators see of a directory that may not be looked at.
-/
import Provisioning.Proofs.Cgroup.Ownership
import Provisioning.Proofs.Cgroup.Verified

namespace Provisioning

open Run

/-! ## Failures for lack of rights -/

namespace Fault

/-- The failure is for lack of rights: the error of the host, or permission denied. -/
inductive ForRights : Fault → Prop where
  | bare {e : SystemError} (hrefused : e.isRefused = true) : ForRights (.system e)
  | reported {r : Refusal} (hkind : r.kind = .permissionDenied) : ForRights (.refused r)

/-- The failure is reported as permission denied, and the operator is advised to elevate. -/
def IsPermissionDenied (f : Fault) : Prop :=
  ∃ r, f = .refused r ∧ r.kind = .permissionDenied ∧
    r.resolution = RefusalKind.usualResolution .permissionDenied

theorem isPermissionDenied_refuseFrom (cause : Cause) (message : String)
    (details : List (String × Detail)) :
    (refuseFrom cause .permissionDenied message details).IsPermissionDenied := ⟨_, rfl, rfl, rfl⟩

theorem not_isPermissionDenied_system (e : SystemError) : ¬ (system e).IsPermissionDenied := by
  rintro ⟨r, hr, -⟩
  cases hr

end Fault

namespace Tree

variable {t : Tree} {path : Path}

/-- Nothing is at a path, and nothing may be made in the directory that would hold it. -/
def Barred (t : Tree) (path : Path) : Prop :=
  t.get? path = none ∧
    ∃ parent, t.get? path.parent = some parent ∧ parent.type = .directory ∧
      parent.denies.mkdir = true

/-- Nothing is at a path, and a file is where the directory should be that would hold it. -/
def Blocked (t : Tree) (path : Path) : Prop :=
  t.get? path = none ∧ t.typeAt path.parent = some .file

theorem mkdir_of_barred (uid : Int) (hbarred : t.Barred path) :
    t.mkdir uid path = .error (.about SystemError.accessDenied path.toString) := by
  obtain ⟨habsent, parent, hparent, htype, hdenied⟩ := hbarred
  simp [mkdir, habsent, hparent, htype, hdenied]

theorem mkdir_of_blocked (uid : Int) (hblocked : t.Blocked path) :
    t.mkdir uid path = .error (.about SystemError.notDirectory path.toString) := by
  obtain ⟨habsent, htype⟩ := hblocked
  obtain ⟨parent, hparent, hfile⟩ := Option.map_eq_some_iff.1 htype
  simp [mkdir, habsent, hparent, hfile]

/-- Where nothing is, the parent decides what comes of making a directory. -/
theorem closed_of_absent (habsent : t.get? path = none) (hclosed : ¬ t.Makeable path) :
    t.Unmounted path ∨ t.Blocked path ∨ t.Barred path := by
  cases hparent : t.get? path.parent with
  | none => exact .inl ⟨habsent, hparent⟩
  | some parent =>
      cases htype : parent.type with
      | file => exact .inr (.inl ⟨habsent, by rw [typeAt, hparent, Option.map_some, htype]⟩)
      | directory =>
          refine .inr (.inr ⟨habsent, parent, hparent, htype, ?_⟩)
          exact Bool.of_not_eq_false fun hallowed =>
            hclosed ⟨habsent, parent, hparent, htype, hallowed⟩

/-- A directory cannot be had where something hides, or where nothing is and none can be made. -/
theorem closed_of_not_open (hclosed : ¬ t.Open path) :
    t.Hidden path ∨ t.Unmounted path ∨ t.Blocked path ∨ t.Barred path := by
  cases hthere : t.get? path with
  | none => exact .inr (closed_of_absent hthere fun hmakeable => hclosed (.inr hmakeable))
  | some n =>
      refine .inl ⟨n, hthere, Bool.of_not_eq_false fun hseen => ?_⟩
      exact hclosed (.inl ⟨n, hthere, hseen⟩)

end Tree

/-! ## Calls that may be refused -/

/-- A call of the host for which rights may be lacking. -/
inductive SystemCall where
  /-- Look for an entry. -/
  | stat (path : Path)
  | mkdir (path : Path)
  /-- Give an entry away, met on the way from `start`. -/
  | chown (start entry : Path)

namespace CgroupFilesystem

variable {path : Path} {h : Host}

/-- The refusal of a directory, for lack of rights. -/
def makeDenied (path : Path) : Fault :=
  .refuseFrom (.system (.about SystemError.accessDenied path.toString)) .permissionDenied
    ("Permission denied creating " ++ path.toString) [("path", .text path.toString)]

theorem directEnsureDirectory_of_barred (hbarred : h.tree.Barred path) :
    directEnsureDirectory path h = .error (makeDenied path) h := by
  rw [directEnsureDirectory_of_file (isDirectory_of_absent hbarred.1), mkdir,
    Tree.mkdir_of_barred _ hbarred]
  rfl

theorem directEnsureDirectory_of_blocked (hblocked : h.tree.Blocked path) :
    directEnsureDirectory path h =
      .error (.system (.about SystemError.notDirectory path.toString)) h := by
  rw [directEnsureDirectory_of_file (isDirectory_of_absent hblocked.1), mkdir,
    Tree.mkdir_of_blocked _ hblocked]
  rfl

theorem directEnsureDirectory_of_unmounted (hunmounted : h.tree.Unmounted path) :
    directEnsureDirectory path h = .error (notMounted path) h := by
  rw [directEnsureDirectory_of_file (isDirectory_of_absent hunmounted.1), mkdir,
    Tree.mkdir_of_unmounted _ hunmounted]
  rfl

theorem directEnsureDirectory_of_open (hopen : h.tree.Open path) :
    ∃ isNew h', directEnsureDirectory path h = .ok isNew h' ∧
      h'.tree = h.tree.made h.euid path ∧ h'.passwd = h.passwd := by
  have hends := makeEnds_directEnsureDirectory path h
  cases hmade : directEnsureDirectory path h with
  | error e h' =>
      rw [hmade] at hends
      cases hends with
      | closed hclosed => exact absurd hopen hclosed
  | ok isNew h' =>
      rw [hmade] at hends
      cases hends with
      | made _ htree hpasswd => exact ⟨isNew, h', rfl, htree, hpasswd⟩

end CgroupFilesystem

/-- What a call comes to if it is refused while directories are given to `owner`. -/
def SystemCall.failure (owner : String) : SystemCall → Fault
  | .stat path => .system (.about SystemError.accessDenied path.toString)
  | .mkdir path => CgroupFilesystem.makeDenied path
  | .chown start entry =>
    CgroupFilesystem.ownerDenied start owner (.about SystemError.notPermitted entry.toString)

/-- Only what is refused when a directory is looked for is not reported as permission denied. -/
theorem SystemCall.isPermissionDenied_failure_iff (call : SystemCall) (owner : String) :
    (call.failure owner).IsPermissionDenied ↔ ∀ path, call ≠ .stat path := by
  cases call with
  | stat path =>
      exact iff_of_false (Fault.not_isPermissionDenied_system _) fun hnot => hnot path rfl
  | mkdir path => exact iff_of_true (Fault.isPermissionDenied_refuseFrom _ _ _) nofun
  | chown start entry => exact iff_of_true (Fault.isPermissionDenied_refuseFrom _ _ _) nofun

theorem SystemCall.forRights_failure (call : SystemCall) (owner : String) :
    (call.failure owner).ForRights := by
  cases call with
  | stat path => exact .bare rfl
  | mkdir path => exact .reported rfl
  | chown start entry => exact .reported rfl

namespace CgroupProvisioner

variable {p : CgroupProvisioner} {owner : String} {path : Path} {h : Host} {call : SystemCall}
  {f : Fault}

/-! ## The turn of one directory -/

/-- The first call that is refused in the turn of a directory, which begins on the host `h`. -/
inductive TurnRefused (owner : String) (path : Path) (h : Host) : SystemCall → Prop where
  | stat (hhidden : h.tree.Hidden path) : TurnRefused owner path h (.stat path)
  | mkdir (hbarred : h.tree.Barred path) : TurnRefused owner path h (.mkdir path)
  /-- The directory is there, and the entries before this one may be given away. -/
  | chown {uid : Int} {q : Path} {given rest : List Path} (hopen : h.tree.Open path)
      (hnumber : h.passwd.lookup owner = some uid)
      (hreach : (h.tree.made h.euid path).reach path = given ++ q :: rest)
      (hbefore : ∀ r ∈ given, (h.tree.made h.euid path).Givable r)
      (hwithheld : (h.tree.made h.euid path).Withheld q) :
      TurnRefused owner path h (.chown path q)

/-- What the turn of a directory may fail with, when it begins on the host `h`. -/
inductive TurnFails (owner : String) (path : Path) (h : Host) : Fault → Prop where
  /-- A call is refused for lack of rights. -/
  | refused {call : SystemCall} (hrefused : TurnRefused owner path h call) :
      TurnFails owner path h (call.failure owner)
  /-- The controller is not mounted. -/
  | unmounted (hunmounted : h.tree.Unmounted path) :
      TurnFails owner path h (CgroupFilesystem.notMounted path)
  /-- A file is in the way. -/
  | blocked (hblocked : h.tree.Blocked path) :
      TurnFails owner path h (.system (.about SystemError.notDirectory path.toString))
  /-- The owner has no number. -/
  | unknown (hnumber : h.passwd.lookup owner = none) :
      TurnFails owner path h (IdentityStore.unknownAccount owner)

/-- Of these failures only those of refused calls are for lack of rights. -/
theorem TurnFails.exists_call (hfails : TurnFails owner path h f) (hrights : f.ForRights) :
    ∃ call, TurnRefused owner path h call ∧ f = call.failure owner := by
  cases hfails with
  | refused hrefused => exact ⟨_, hrefused, rfl⟩
  | unmounted => cases hrights with | reported hkind => exact nomatch hkind
  | blocked => cases hrights with | bare hrefused => exact nomatch hrefused
  | unknown => cases hrights with | reported hkind => exact nomatch hkind

/-- A directory that can be had is had, and then given away. -/
theorem provisionOne_of_open (hdirect : p.filesystem = .direct) (owner : String)
    (hopen : h.tree.Open path) :
    ∃ h₁, h₁.tree = h.tree.made h.euid path ∧ h₁.passwd = h.passwd ∧
      p.provisionOne owner path h = giveAway path owner h₁ := by
  obtain ⟨isNew, h', hmade, htree, hpasswd⟩ :=
    @CgroupFilesystem.directEnsureDirectory_of_open path
      (h.noted (.requested (.ensureDirectory path))) hopen
  exact ⟨onMade path owner isNew h', htree, hpasswd, provisionOne_of_ok hdirect hmade⟩

/-- The first refused call ends the turn. -/
theorem provisionOne_of_refused (hdirect : p.filesystem = .direct)
    (hrefused : TurnRefused owner path h call) :
    ∃ h', p.provisionOne owner path h = .error (call.failure owner) h' := by
  cases hrefused with
  | stat hhidden =>
      obtain ⟨n, hthere, hdenied⟩ := hhidden
      exact ⟨_, provisionOne_of_error hdirect
        (CgroupFilesystem.directEnsureDirectory_of_hidden hthere hdenied)⟩
  | mkdir hbarred =>
      exact ⟨_, provisionOne_of_error hdirect
        (CgroupFilesystem.directEnsureDirectory_of_barred hbarred)⟩
  | chown hopen hnumber hreach hbefore hwithheld =>
      obtain ⟨h₁, htree, hpasswd, hone⟩ := provisionOne_of_open hdirect owner hopen
      rw [← htree] at hreach hbefore hwithheld
      rw [← hpasswd] at hnumber
      exact ⟨_, hone.trans (bind_apply_of_error
        (CgroupFilesystem.directChangeOwner_of_withheld hnumber hreach hbefore hwithheld) _)⟩

/-- The turn of a directory that can be had fails as giving it away does. -/
theorem turnFails_of_open (hdirect : p.filesystem = .direct) (hopen : h.tree.Open path) {h' : Host}
    (hfailed : p.provisionOne owner path h = .error f h') : TurnFails owner path h f := by
  obtain ⟨h₁, htree, hpasswd, hone⟩ := provisionOne_of_open hdirect owner hopen
  have hthere : (h₁.tree.get? path).isSome = true := by
    rw [htree, Tree.get?_made, if_pos rfl]
    rfl
  have hends := CgroupFilesystem.ownerEnds_directChangeOwner owner hthere
  rw [hone] at hfailed
  unfold giveAway at hfailed
  cases hgiven : CgroupFilesystem.directChangeOwner path owner h₁ with
  | ok u h₂ =>
      rw [bind_apply_of_ok hgiven] at hfailed
      cases hfailed
  | error e h₂ =>
      rw [bind_apply_of_error hgiven] at hfailed
      cases hfailed
      rw [hgiven] at hends
      cases hends with
      | unknown hnumber => exact .unknown (hpasswd ▸ hnumber)
      | @withheld uid q given rest hnumber hreach hbefore hwithheld =>
          rw [htree] at hreach hbefore hwithheld
          rw [hpasswd] at hnumber
          have hrefused : TurnRefused owner path h (.chown path q) :=
            .chown hopen hnumber hreach hbefore hwithheld
          exact .refused hrefused

/-- The turn of any other directory fails as looking for it or making it does. -/
theorem turnFails_of_closed (hdirect : p.filesystem = .direct) (hclosed : ¬ h.tree.Open path)
    {h' : Host} (hfailed : p.provisionOne owner path h = .error f h') :
    TurnFails owner path h f := by
  have hfault : ∀ {e : Fault},
      CgroupFilesystem.directEnsureDirectory path
        (h.noted (.requested (.ensureDirectory path))) =
          .error e (h.noted (.requested (.ensureDirectory path))) → f = e := by
    intro e hmade
    rw [provisionOne_of_error hdirect hmade] at hfailed
    cases hfailed
    rfl
  rcases Tree.closed_of_not_open hclosed with hhidden | hunmounted | hblocked | hbarred
  · have hrefused : TurnRefused owner path h (.stat path) := .stat hhidden
    obtain ⟨n, hthere, hdenied⟩ := hhidden
    exact hfault (CgroupFilesystem.directEnsureDirectory_of_hidden hthere hdenied) ▸
      .refused hrefused
  · exact hfault (CgroupFilesystem.directEnsureDirectory_of_unmounted hunmounted) ▸
      .unmounted hunmounted
  · exact hfault (CgroupFilesystem.directEnsureDirectory_of_blocked hblocked) ▸
      .blocked hblocked
  · exact hfault (CgroupFilesystem.directEnsureDirectory_of_barred hbarred) ▸
      .refused (.mkdir hbarred)

/-- A turn that fails does so in one of these ways. -/
theorem turnFails_of_error (hdirect : p.filesystem = .direct) {h' : Host}
    (hfailed : p.provisionOne owner path h = .error f h') : TurnFails owner path h f := by
  by_cases hopen : h.tree.Open path
  · exact turnFails_of_open hdirect hopen hfailed
  · exact turnFails_of_closed hdirect hopen hfailed

/-- A turn fails for lack of rights exactly if a call of it is refused, and then with what the first
such call comes to. -/
theorem provisionOne_denied_iff (hdirect : p.filesystem = .direct) :
    (∃ h', p.provisionOne owner path h = .error f h') ∧ f.ForRights ↔
      ∃ call, TurnRefused owner path h call ∧ f = call.failure owner := by
  constructor
  · rintro ⟨⟨h', hfailed⟩, hrights⟩
    exact (turnFails_of_error hdirect hfailed).exists_call hrights
  · rintro ⟨call, hrefused, rfl⟩
    exact ⟨provisionOne_of_refused hdirect hrefused, call.forRights_failure owner⟩

/-! ## The directories of a list -/

/-- The first call that is refused while the directories of a list have their turns, from the host `h`
on: the turns before were done. -/
def FirstRefused (p : CgroupProvisioner) (owner : String) (paths : List Path) (h : Host)
    (call : SystemCall) : Prop :=
  ∃ done path rest h₁, paths = done ++ path :: rest ∧ p.provisionEach owner done h = .ok () h₁ ∧
    TurnRefused owner path h₁ call

theorem provisionEach_denied_iff (hdirect : p.filesystem = .direct) {paths : List Path} :
    (∃ h', p.provisionEach owner paths h = .error f h') ∧ f.ForRights ↔
      ∃ call, p.FirstRefused owner paths h call ∧ f = call.failure owner := by
  constructor
  · rintro ⟨⟨h', hfailed⟩, hrights⟩
    obtain ⟨done, path, rest, h₁, hpaths, hdone, hlast⟩ := provisionEach_eq_error_iff.1 hfailed
    obtain ⟨call, hrefused, rfl⟩ := (provisionOne_denied_iff hdirect).1 ⟨⟨h', hlast⟩, hrights⟩
    exact ⟨call, ⟨done, path, rest, h₁, hpaths, hdone, hrefused⟩, rfl⟩
  · rintro ⟨call, ⟨done, path, rest, h₁, hpaths, hdone, hrefused⟩, rfl⟩
    obtain ⟨h', hlast⟩ := provisionOne_of_refused hdirect hrefused
    exact ⟨⟨h', provisionEach_eq_error_iff.2 ⟨done, path, rest, h₁, hpaths, hdone, hlast⟩⟩,
      call.forRights_failure owner⟩

/-- Every directory of a group may be looked at once all have had their turns. -/
theorem not_hidden_of_provisionEach (hdirect : p.filesystem = .direct) {paths : List Path}
    {h' : Host} (hdone : p.provisionEach owner paths h = .ok () h') :
    ∀ path ∈ paths, ¬ h'.tree.Hidden path := by
  intro path hpath
  cases hnumber : h.passwd.lookup owner with
  | none =>
      cases paths with
      | nil => exact absurd hpath List.not_mem_nil
      | cons first rest => exact absurd hnumber (first_of_provisionEach hdirect hdone).2
  | some uid =>
      obtain ⟨n, hthere, hseen, -⟩ := (belongs_of_provisionEach hdirect hdone hnumber).2 path hpath
      exact (Tree.not_hidden_iff hthere).2 hseen

end CgroupProvisioner

/-! ## Runs -/

namespace Orchestrator

variable {o : Orchestrator} {identities : IdentityStore} {config : Config} {request : Request}
  {s s' : Session} {owner : String} {h : Host} {f : Fault}

/-- A run that comes to provision its group fails with what its directories fail with, or because
they belong to another afterwards. -/
theorem error_of_provisions (hlinux : o.capability = .linux identities .direct config)
    (hprovisions : o.Provisions identities config request s owner h)
    (hrun : o.run request s = .error f s') :
    (∃ h', (Capability.provisioner identities .direct config).provisionEach owner
        (groupPaths config.cgroupRoot (Capability.groupOf config request)) h = .error f h') ∨
      ∃ wrong, wrong ≠ [] ∧ f = Capability.misowned config request owner wrong := by
  cases heach : (Capability.provisioner identities .direct config).provisionEach owner
      (groupPaths config.cgroupRoot (Capability.groupOf config request)) h with
  | error e h' =>
      obtain ⟨r, hended⟩ := run_of_provisions hlinux hprovisions heach
      rw [hended] at hrun
      cases hrun
      exact .inl ⟨h', rfl⟩
  | ok u h' =>
      obtain ⟨i, h₁, h₂, hbegins, hresolve, rfl, hknown, hnamed⟩ := hprovisions
      have hprovision : (Capability.provisioner identities .direct config).provision
          (Capability.groupOf config request) i.name
          (h₂.logged .info .platform (Capability.groupNotice config request i.name)) =
            .ok (groupPaths config.cgroupRoot (Capability.groupOf config request)) h' :=
        (CgroupProvisioner.provision_of_known hknown (CgroupSpec.forGroup_of_ne hnamed)).trans
          (bind_apply_of_ok heach _)
      have hends := endsGroup_run hlinux request s
      rw [hrun] at hends
      cases hends with
      | unbegun hended => exact nomatch hended.symm.trans hbegins
      | failed hbegins' hgroup =>
          cases hbegins.symm.trans hbegins'
          cases hgroup with
          | ownerless hresolve' => exact nomatch hresolve.symm.trans hresolve'
          | unprovisioned hresolve' hprovision' =>
              cases hresolve.symm.trans hresolve'
              exact nomatch hprovision.symm.trans hprovision'
          | unverified hresolve' hprovision' hverify =>
              obtain ⟨uid, -, hverified⟩ := CgroupProvisioner.verify_of_provision rfl hprovision'
              exact nomatch hverify.2.symm.trans hverified
          | misowned hresolve' hprovision' hverify hne =>
              cases hresolve.symm.trans hresolve'
              exact .inr ⟨_, hne, rfl⟩

/-- **Refused calls.**  A run for an isolation group by direct calls ends with what its first refused
call comes to: permission denied and the advice to elevate, unless that call was to look for a
directory, whose bare error is passed on.  A run that comes to provision its group fails for lack
of rights in no other way than by a refused call or by directories of another owner, and the
directories that it has provisioned are looked at without a refusal. -/
theorem refused_call_ends_run (hlinux : o.capability = .linux identities .direct config)
    (hprovisions : o.Provisions identities config request s owner h) :
    let p := Capability.provisioner identities .direct config
    let paths := groupPaths config.cgroupRoot (Capability.groupOf config request)
    (∀ call, p.FirstRefused owner paths h call →
      (∃ s', o.run request s = .error (call.failure owner) s') ∧
        ((call.failure owner).IsPermissionDenied ↔ ∀ path, call ≠ .stat path)) ∧
    (∀ f s', o.run request s = .error f s' → f.ForRights →
      (∃ call, p.FirstRefused owner paths h call ∧ f = call.failure owner) ∨
        ∃ wrong, wrong ≠ [] ∧ f = Capability.misowned config request owner wrong) ∧
    ∀ h', p.provisionEach owner paths h = .ok () h' → ∀ path ∈ paths, ¬ h'.tree.Hidden path := by
  intro p paths
  refine ⟨fun call hfirst => ⟨?_, call.isPermissionDenied_failure_iff owner⟩,
    fun f s' hrun hrights => ?_, fun h' hdone =>
      CgroupProvisioner.not_hidden_of_provisionEach rfl hdone⟩
  · obtain ⟨⟨h', heach⟩, -⟩ :=
      (CgroupProvisioner.provisionEach_denied_iff rfl).2 ⟨call, hfirst, rfl⟩
    obtain ⟨r, hrun⟩ := run_of_provisions hlinux hprovisions heach
    exact ⟨_, hrun⟩
  · refine (error_of_provisions hlinux hprovisions hrun).imp_left fun heach => ?_
    exact (CgroupProvisioner.provisionEach_denied_iff rfl).1 ⟨heach, hrights⟩

/-- A host on which all controllers are mounted, with an entry that denies something. -/
def denyingHost (path : String) (node : Node) : Host :=
  { runnerHost with tree := runnerHost.tree.put (Path.ofString path) node }

/-- The group was there for `cpuacct`, with an entry that may not be given away: `blkio` has its turn,
and then permission is denied. -/
theorem refused_call_ends_run_tasks :
    let start : Host := denyingHost "/cg/cpuacct/sp" {}
    let tasks := Path.ofString "/cg/cpuacct/sp/tasks"
    let host : Host := { start with
      tree := start.tree.put tasks { type := .file, denies := { chown := true } } }
    ∃ s', onGroupTree.run {} ⟨host, none⟩ = .error
      (CgroupFilesystem.ownerDenied (Path.ofString "/cg/cpuacct/sp") "runner"
        (.about SystemError.notPermitted tasks.toString)) s' := by
  intro start tasks host
  let config : Config := { cgroupRoot := Path.ofString "/cg" }
  let p := Capability.provisioner .posix .direct config
  let sp := Path.ofString "/cg/cpuacct/sp"
  obtain ⟨h, hprovisions, u, h₁, hdone, hsp, htasks, hreach, hnumber⟩ : ∃ h,
      onGroupTree.Provisions .posix config {} ⟨host, none⟩ "runner" h ∧
        ∃ u h₁, p.provisionEach "runner" [Path.ofString "/cg/blkio/sp"] h = .ok u h₁ ∧
          h₁.tree.get? sp = some {} ∧
          h₁.tree.Withheld tasks ∧ h₁.tree.reach sp = [sp] ++ tasks :: [] ∧
          h₁.passwd.lookup "runner" = some 1000 :=
    ⟨_, ⟨_, _, _, rfl, rfl, rfl, rfl, by decide⟩, by decide +kernel⟩
  have hmade : h₁.tree.made h₁.euid sp = h₁.tree := Tree.made_of_some hsp _
  have hrefused : CgroupProvisioner.TurnRefused "runner" sp h₁ (.chown sp tasks) := by
    refine .chown (.inl ⟨_, hsp, rfl⟩) hnumber (hmade.symm ▸ hreach) ?_ (hmade.symm ▸ htasks)
    rintro r hr
    cases List.mem_singleton.1 hr
    exact hmade.symm ▸ ⟨_, hsp, rfl⟩
  obtain ⟨hends, -, -⟩ := @refused_call_ends_run onGroupTree .posix config {} ⟨host, none⟩ "runner"
    h rfl hprovisions
  exact (hends _ ⟨[Path.ofString "/cg/blkio/sp"], sp, (groupPaths p.root "sp").drop 2, h₁,
    by decide +kernel, hdone, hrefused⟩).1

/-- A directory that may not be looked at ends a run in the bare error of the host. -/
theorem not_always_permission_denied :
    ¬ ∀ (o : Orchestrator) (identities : IdentityStore) (config : Config) (request : Request)
        (s : Session) (owner : String) (h : Host) (call : SystemCall),
      o.capability = .linux identities .direct config →
      o.Provisions identities config request s owner h →
      (Capability.provisioner identities .direct config).FirstRefused owner
        (groupPaths config.cgroupRoot (Capability.groupOf config request)) h call →
      ∀ f s', o.run request s = .error f s' → f.IsPermissionDenied := by
  intro halways
  let config : Config := { cgroupRoot := Path.ofString "/cg" }
  let sp := Path.ofString "/cg/blkio/sp"
  let host := denyingHost "/cg/blkio/sp" { denies := { stat := true } }
  obtain ⟨f, s', hrun, hf⟩ : ∃ f s', onGroupTree.run {} ⟨host, none⟩ = .error f s' ∧
      f.refusal? = none := by decide +kernel
  obtain ⟨h, hprovisions, hhidden⟩ : ∃ h,
      onGroupTree.Provisions .posix config {} ⟨host, none⟩ "runner" h ∧ h.tree.Hidden sp :=
    ⟨_, ⟨_, _, _, rfl, rfl, rfl, rfl, by decide⟩, by decide +kernel⟩
  obtain ⟨r, rfl, -⟩ := halways onGroupTree .posix config {} ⟨host, none⟩ "runner" h (.stat sp) rfl
    hprovisions ⟨[], sp, (groupPaths config.cgroupRoot "sp").drop 1, h, by decide +kernel, rfl,
      .stat hhidden⟩ f s' hrun
  cases hf

end Orchestrator

end Provisioning
