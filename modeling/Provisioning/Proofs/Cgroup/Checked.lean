/-
# `Provisioning.Proofs.Cgroup.Checked` — what a run that returned has seen to

A run for an isolation group may work on a backend that tells it anything: an
elevating program can report success and do nothing, or do something else.
Nothing about the programs is assumed here.  What a returning run guarantees it
owes to its own checks.

    before anything is asked for    no option for accounts; the owner is an account
    after everything was done       the owner of each directory is looked up

**Stated here.**  A run that verifies and returns reports the directories of
its group, the backend shows each of them as the target's, the accounts know
the target, and no account was asked for (`run_is_checked`).
-/
import Provisioning.Proofs.Cgroup.Usable

namespace Provisioning

open Run

/-! ## Hosts that look the same to a lookup -/

namespace CgroupFilesystem

/-- Nothing that is written down changes what is shown as the owner of a path. -/
theorem ownerOf_noted (fs : CgroupFilesystem) {path : Path} {shown : Option String} {h : Host}
    (e : Event) (hshown : fs.ownerOf path h = .ok shown h) :
    fs.ownerOf path (h.noted e) = .ok shown (h.noted e) := by
  have htree : treeOwnerOf path h = .ok shown h →
      treeOwnerOf path (h.noted e) = .ok shown (h.noted e) := by
    intro hshown
    obtain ⟨hnot, howner⟩ := treeOwnerOf_eq_ok_iff.1 hshown
    exact treeOwnerOf_eq_ok_iff.2 ⟨hnot, howner⟩
  cases fs with
  | table =>
      have hsame : h.cgroups.owners.get? path = shown := (EStateM.Result.ok.inj hshown).1
      exact congrArg (EStateM.Result.ok · (h.noted e)) hsame
  | direct => exact htree hshown
  | viaSudo executable limit => exact htree hshown

end CgroupFilesystem

namespace IdentityStore

/-- The accounts are on the host itself, and no program is asked about them. -/
def IsOnHost : IdentityStore → Prop
  | .netUser _ _ => False
  | _ => True

/-- Such accounts answer the same as long as nobody changes them. -/
theorem exists_of_accounts_eq {store : IdentityStore} (honHost : store.IsOnHost) {name : String}
    {h h' g : Host} {known : Bool} (hknown : store.exists? name h = .ok known h')
    (haccounts : g.accounts = h.accounts) (hpasswd : g.passwd = h.passwd) :
    store.exists? name g = .ok known g := by
  cases store with
  | netUser executable limit => exact honHost.elim
  | table =>
      have hsame : h.accounts.has name = known := (EStateM.Result.ok.inj hknown).1
      rw [← haccounts] at hsame
      exact congrArg (EStateM.Result.ok · g) hsame
  | posix =>
      have hsame : (h.passwd.lookup name).isSome = known := (EStateM.Result.ok.inj hknown).1
      rw [← hpasswd] at hsame
      exact congrArg (EStateM.Result.ok · g) hsame

end IdentityStore

namespace CgroupProvisioner

variable {p : CgroupProvisioner} {owner : String} {h h₁ : Host}

/-- A known owner is an account of the store that is asked. -/
theorem exists_of_ownerIsKnown {store : IdentityStore} (hstore : p.identities = some store)
    (hknown : p.ownerIsKnown owner h = .ok true h₁) : store.exists? owner h = .ok true h₁ := by
  unfold ownerIsKnown at hknown
  split at hknown
  · exact nomatch hknown
  · rwa [hstore] at hknown

/-- Provisioning a group changes no account. -/
theorem accounts_provision (p : CgroupProvisioner) (group owner : String) :
    Leads (SameBy Host.accounts) (p.provision group owner) :=
  steady_provision p group owner fun _ _ _ _ => ⟨fun _ => rfl, fun _ => rfl⟩

end CgroupProvisioner

/-! ## No account is asked for -/

namespace Orchestrator

variable {o : Orchestrator} {identities : IdentityStore} {filesystem : CgroupFilesystem}
  {config : Config} {request : Request} {s s' : Session} {report : Report}

/-- Until a run begins no change is asked for. -/
theorem journal_of_begins (hquiet : o.AskOnlyAnswers) {h : Host}
    (hbegins : o.Begins request s h) :
    ∃ es : Journal, h.journal = s.host.journal ++ es ∧ es.changes = [] := by
  obtain ⟨u, h₁, hvalidate, hconfirm⟩ := bind_apply_eq_ok_iff.1 hbegins
  obtain ⟨es, hj, -, hc⟩ := (((looked_validate o request).of_ok hvalidate).grows _).exists_quiet
  obtain ⟨h', hconfirm', hconsent⟩ | ⟨e, h', hconfirm', -⟩ := confirm_cases o request h₁
  · rw [hconfirm] at hconfirm'
    cases hconfirm'
    obtain ⟨fs, hj', hc', -⟩ := hconsent.journal hquiet
    exact ⟨es ++ fs, by rw [hj', hj, List.append_assoc], by simp [hc, hc']⟩
  · rw [hconfirm] at hconfirm'
    exact nomatch hconfirm'

/-- A run for an isolation group asks for no account. -/
theorem accounts_not_asked_of_run (hlinux : o.capability = .linux identities filesystem config)
    (hquiet : o.AskOnlyAnswers) (hrun : o.run request s = .ok report s') :
    ∃ own : Journal, s'.host.journal = s.host.journal ++ own ∧
      ∀ name, Change.createAccount name ∉ own.changes := by
  have hends := ends_run o request s
  rw [hrun] at hends
  cases hends with
  | @returned h p hbegins happly =>
      obtain ⟨es, hj, hc⟩ := journal_of_begins hquiet hbegins
      have hgrows : Step.Leads (Host.Grows fun c => ∀ name, c ≠ .createAccount name)
          (o.apply request) := by
        refine steady_apply o request (fun name hname => ?_) fun target => ?_
        · rw [Request.given_createUser_of_windowsOptions (windowsOptions_of_begins hlinux hbegins)]
            at hname
          exact nomatch hname
        · rw [hlinux]
          exact Capability.steady_provisionGroup identities filesystem config request
            fun _ _ _ _ => ⟨allows_grows (by simp), fun _ => allows_grows (by simp)⟩
      obtain ⟨fs, hj', -, hc'⟩ := hgrows.of_ok happly
      refine ⟨es ++ fs, by rw [hj', hj, List.append_assoc], fun name hmem => ?_⟩
      rw [Journal.changes_append, hc] at hmem
      exact hc' _ hmem name rfl

/-! ## What was checked -/

/-- The accounts said that there is the owner, when the run had resolved them and nothing was asked
for yet. -/
def Vouched (o : Orchestrator) (identities : IdentityStore) (config : Config) (request : Request)
    (s : Session) (owner : Identity) : Prop :=
  ∃ h₁ h₂ h₃, o.Begins request s h₁ ∧ identities.resolve request.cgroupOwner h₁ = .ok owner h₂ ∧
    identities.exists? owner.name
      (h₂.logged .info .platform (Capability.groupNotice config request owner.name)) = .ok true h₃

/-- **A run that returns is a checked one**, whatever the backend and its programs do.  It reports
the directories of the group in their order; on the host that it leaves each of them is shown as the
target's; the accounts know the target, and still do unless a program is asked about them; and no
account was asked for. -/
theorem run_is_checked (hlinux : o.capability = .linux identities filesystem config)
    (hwanted : config.verifyCgroups = true) (hquiet : o.AskOnlyAnswers)
    (hrun : o.run request s = .ok report s') :
    report.cgroups =
        (groupPaths config.cgroupRoot (Capability.groupOf config request)).map Path.toString ∧
      ∃ owner, report.target = some owner ∧
        (∀ path ∈ groupPaths config.cgroupRoot (Capability.groupOf config request),
          filesystem.ownerOf path s'.host = .ok (some owner.name) s'.host) ∧
        o.Vouched identities config request s owner ∧
        (identities.IsOnHost → identities.exists? owner.name s'.host = .ok true s'.host) ∧
        ∃ own : Journal, s'.host.journal = s.host.journal ++ own ∧
          ∀ name, Change.createAccount name ∉ own.changes := by
  have hnoAccount := accounts_not_asked_of_run hlinux hquiet hrun
  have hends := endsGroup_run hlinux request s
  rw [hrun] at hends
  cases hends with
  | @returned h p hbegins hgroup =>
      cases hgroup with
      | @provisioned owner paths h₁ h₂ hresolve hprovision hverify =>
          have hends := hprovision ▸ CgroupProvisioner.provisionEnds_provision _ _ _ _
          cases hends with
          | @provisioned specs h₃ h₄ hknown hnamed heach =>
              have hexists := CgroupProvisioner.exists_of_ownerIsKnown rfl hknown
              have hshown := (CgroupProvisioner.verify_eq_nil_iff
                (ne_empty_of_forGroup hnamed)).1 (hverify hwanted)
              refine ⟨rfl, owner, rfl, fun path hpath => ?_,
                ⟨h, h₁, h₃, hbegins, hresolve, hexists⟩, fun honHost => ?_, hnoAccount⟩
              · exact filesystem.ownerOf_noted _ (hshown path hpath)
              · have haccounts := (CgroupProvisioner.accounts_provision _ _ _).of_ok hprovision
                have hpasswd := (CgroupProvisioner.passwd_provision _ _ _).of_ok hprovision
                exact IdentityStore.exists_of_accounts_eq honHost hexists haccounts hpasswd

/-- Runs for groups through an elevating program, all of them confirmed. -/
def onSudo : Orchestrator where
  capability := .linux .posix (.viaSudo "sudo" 60) { cgroupRoot := Path.ofString "/cg" }
  confirmation := some (fixedAnswer true [])

theorem onSudo_quiet : onSudo.AskOnlyAnswers := by
  rintro ask ⟨⟩ q
  exact grows_fixedAnswer true [] q

/-- A program that reports success and does nothing passes where there was nothing to do. -/
theorem run_is_checked_idle :
    ∃ report s', onSudo.run {} ⟨groupHost .directory, none⟩ = .ok report s' ∧
      ∀ path ∈ groupPaths (Path.ofString "/cg") "sp",
        (CgroupFilesystem.viaSudo "sudo" 60).ownerOf path s'.host =
          .ok (some "runner") s'.host := by
  obtain ⟨report, s', hrun, hnamed⟩ : ∃ report s',
      onSudo.run {} ⟨groupHost .directory, none⟩ = .ok report s' ∧
        report.target.map Identity.name = some "runner" := by decide +kernel
  obtain ⟨-, owner, htarget, hshown, -⟩ := run_is_checked (o := onSudo) rfl rfl onSudo_quiet hrun
  rw [htarget, Option.map_some, Option.some.injEq] at hnamed
  rw [hnamed] at hshown
  exact ⟨report, s', hrun, hshown⟩

/-- Where the controllers are mounted and there is no group yet, it does not pass. -/
example :
    ∃ e s', ({ capability := .linux .posix (.viaSudo "sudo" 60) {},
               confirmation := some (fixedAnswer true []) } : Orchestrator).run {}
        ⟨{ passwd := [("root", 0), ("runner", 1000)], login := .ok "runner",
           tree := .ofRows (CgroupSubsystem.all.map fun c =>
             (c.directory (Path.ofString "/sys/fs/cgroup"), {})) }, none⟩ = .error e s' ∧
      e.message =
        "cgroup directories not owned by 'runner': blkio, cpuacct, memory, pids, freezer" := by
  decide +kernel

end Orchestrator

end Provisioning
