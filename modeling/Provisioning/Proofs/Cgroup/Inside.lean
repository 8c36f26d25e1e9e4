/-
# `Provisioning.Proofs.Cgroup.Inside` — a run for a group stays inside the controllers

A run for an isolation group is meant to touch nothing but the directories
`<root>/<controller>/<group>`.  It does so exactly for plain names: nothing
but the empty name is rejected, so a group named `/srv/data` has that one
directory for all of its controllers, a group named `.` has those of the
controllers themselves, and giving a directory away gives away all that it
holds.

**Stated here.**  What a run asks for, whatever its backends are and however it
ends; that this is confined to the controllers exactly for plain names; and,
on the hierarchy kept in memory, which entries change hands.
-/
import Provisioning.Proofs.Cgroup.Asked
import Provisioning.Proofs.Cgroup.Table

namespace Provisioning

/-- All directories asked for are inside the controllers under a root, and the directories of the
group are as many as the controllers. -/
def ConfinedTo (root : Path) (group : String) (own : Journal) : Prop :=
  (∀ p ∈ own.directories, p.Inside root) ∧ (groupPaths root group).Nodup

section
variable {root : Path} {group : String} {own : Journal}

theorem mem_twice {paths : List Path} {p : Path} : p ∈ twice paths ↔ p ∈ paths := by
  simp [twice]

/-- A run that asks for some of the directories of a plain group is confined. -/
theorem IsPlainGroup.confined (hplain : IsPlainGroup group)
    (hfirst : own.directories <+: twice (groupPaths root group)) : ConfinedTo root group own :=
  ⟨fun _ hp => hplain.inside (mem_twice.1 (hfirst.subset hp)), nodup_groupPaths hplain.1⟩

/-- A run that asks for all directories of a group is confined exactly if the group is plain. -/
theorem confined_iff (hall : own.directories = twice (groupPaths root group)) :
    ConfinedTo root group own ↔ IsPlainGroup group := by
  rw [ConfinedTo, hall]
  simp only [mem_twice]
  exact all_inside_and_nodup_iff

end

namespace Orchestrator

variable {o : Orchestrator} {identities : IdentityStore} {filesystem : CgroupFilesystem}
  {config : Config}

/-- What a run has asked for, with every backend. -/
theorem directories_of_run (hlinux : o.capability = .linux identities filesystem config)
    (hquiet : o.AskOnlyAnswers) (request : Request) (s : Session) :
    ∃ own, (o.sessionAfter request s).host.journal = s.host.journal ++ own ∧
      own.directories <+:
        twice (groupPaths config.cgroupRoot (Capability.groupOf config request)) ∧
      ∀ report s', o.run request s = .ok report s' → own.directories =
        twice (groupPaths config.cgroupRoot (Capability.groupOf config request)) := by
  have hasked := asksFor_run hlinux hquiet request
  unfold sessionAfter
  cases hrun : o.run request s with
  | ok report s' =>
      obtain ⟨own, hj, hall⟩ := hasked.1 _ _ _ hrun
      exact ⟨own, hj, hall ▸ List.prefix_rfl, fun _ _ _ => hall⟩
  | error e s' =>
      obtain ⟨own, hj, hfirst⟩ := hasked.2 _ _ _ hrun
      exact ⟨own, hj, hfirst, fun _ _ hok => nomatch hok⟩

/-- On the table only entries in the group's directories change hands or are made, however the run
ends. -/
theorem within_of_changed (hlinux : o.capability = .linux identities .table config)
    {request : Request} (hkeeps : o.ConfirmKeepsStores request) (s : Session) {p : Path}
    (hchanged : (o.sessionAfter request s).host.cgroups.owners.get? p ≠
      s.host.cgroups.owners.get? p) :
    ∃ q ∈ groupPaths config.cgroupRoot (Capability.groupOf config request),
      p.isWithin q = true := by
  have howners := owners_of_run_table hlinux (fun h => congrArg Stores.cgroups (hkeeps h)) s
  unfold sessionAfter at hchanged
  cases hrun : o.run request s with
  | error e s' =>
      rw [hrun] at howners hchanged
      exact absurd (by rw [howners]) hchanged
  | ok report s' =>
      rw [hrun] at howners hchanged
      obtain ⟨owner, -, hafter⟩ := howners
      by_contra hnone
      refine hchanged ((hafter p).trans (ownerAfter_of_outside fun q hq => ?_))
      cases hwithin : p.isWithin q with
      | false => rfl
      | true => exact absurd ⟨q, hq, hwithin⟩ hnone

/-- **A run for a group and the controllers.**  Whatever its backends and however it ends, a run asks
for the first of the group's directories, each twice, and for all of them if it returns.  That is
confined to the controllers for a plain group; and for no other when the run returns.  On the table
what is made or changes hands lies within one of these directories; when the run returns they and
all they held belong to the owner, and when it fails nothing has changed hands; and for a plain group
all of it is strictly below the directory of a controller. -/
theorem group_run_confined_iff (hlinux : o.capability = .linux identities filesystem config)
    (hquiet : o.AskOnlyAnswers) (request : Request) (hkeeps : o.ConfirmKeepsStores request)
    (s : Session) :
    let group := Capability.groupOf config request
    let paths := groupPaths config.cgroupRoot group
    (∃ own, (o.sessionAfter request s).host.journal = s.host.journal ++ own ∧
      own.directories <+: twice paths ∧
      (IsPlainGroup group → ConfinedTo config.cgroupRoot group own) ∧
      ∀ report s', o.run request s = .ok report s' → own.directories = twice paths ∧
        (ConfinedTo config.cgroupRoot group own ↔ IsPlainGroup group)) ∧
    (filesystem = .table →
      (∀ report s', o.run request s = .ok report s' →
        ∃ owner, report.target = some owner ∧ ∀ p, s'.host.cgroups.owners.get? p =
          ownerAfter owner.name paths p (s.host.cgroups.owners.get? p)) ∧
      (∀ e s', o.run request s = .error e s' →
        s'.host.cgroups.owners = s.host.cgroups.owners) ∧
      ∀ p, (o.sessionAfter request s).host.cgroups.owners.get? p ≠
          s.host.cgroups.owners.get? p →
        (∃ q ∈ paths, p.isWithin q = true) ∧
          (IsPlainGroup group →
            ∃ c : CgroupSubsystem, p.isBelow (c.directory config.cgroupRoot) = true)) := by
  intro group paths
  obtain ⟨own, hj, hfirst, hall⟩ := directories_of_run hlinux hquiet request s
  refine ⟨⟨own, hj, hfirst, fun hplain => hplain.confined hfirst, fun report s' hrun =>
    ⟨hall report s' hrun, confined_iff (hall report s' hrun)⟩⟩, ?_⟩
  rintro rfl
  have howners := owners_of_run_table hlinux (fun h => congrArg Stores.cgroups (hkeeps h)) s
  refine ⟨fun report s' hrun => ?_, fun e s' hrun => ?_, fun p hchanged => ?_⟩
  · rw [hrun] at howners
    exact howners
  · rw [hrun] at howners
    exact howners
  · obtain ⟨q, hq, hwithin⟩ := within_of_changed hlinux hkeeps s hchanged
    exact ⟨⟨q, hq, hwithin⟩, fun hplain => (hplain.inside hq).isBelow hwithin⟩

/-- A host on which `/srv/data` and a secret in it belong to others than the operator. -/
def srvHost : Host where
  passwd := [("root", 0), ("runner", 1000)]
  login := .ok "runner"
  cgroups :=
    { owners := .ofRows
        [(Path.ofString "/srv/data", "root"), (Path.ofString "/srv/data/secret", "alice")] }

/-- Runs for groups on the hierarchy kept in memory, all of them confirmed. -/
def onGroupTable : Orchestrator :=
  { capability := .linux .posix .table {}, confirmation := some (fixedAnswer true []) }

theorem onGroupTable_quiet : onGroupTable.AskOnlyAnswers := by
  rintro ask ⟨⟩ q
  exact grows_fixedAnswer true [] q

theorem onGroupTable_keepsStores (request : Request) : onGroupTable.ConfirmKeepsStores request := by
  refine confirmKeepsStores_of_looksOnly (o := onGroupTable) (fun _ => trivial) ?_ request
  rintro ask ⟨⟩ q h
  exact stores_fixedAnswer true q h

/-- The group `srv/data` keeps its run inside the controllers, the group `/srv/data` does not. -/
theorem group_run_confined_iff_srv :
    let after (group : String) : Session :=
      onGroupTable.sessionAfter { cgroupGroup := some group } ⟨srvHost, none⟩
    let root := ({} : Config).cgroupRoot
    (∃ own, (after "srv/data").host.journal = srvHost.journal ++ own ∧
      ConfinedTo root "srv/data" own) ∧
    ∃ own, (after "/srv/data").host.journal = srvHost.journal ++ own ∧
      ¬ ConfinedTo root "/srv/data" own := by
  intro after root
  have hlaw := fun group : String => (group_run_confined_iff (o := onGroupTable) rfl
    onGroupTable_quiet { cgroupGroup := some group } (onGroupTable_keepsStores _)
    ⟨srvHost, none⟩).1
  obtain ⟨own, hj, -, hconfined, -⟩ := hlaw "srv/data"
  obtain ⟨own', hj', -, -, hreturned⟩ := hlaw "/srv/data"
  refine ⟨⟨own, hj, hconfined (by unfold IsPlainGroup; decide)⟩, own', hj', fun hconfined' => ?_⟩
  have hplain := (hreturned _ _ rfl).2.1 hconfined'
  exact absurd hplain.1 (by decide)

/-- An accepted run for a group may give away what lies outside the controllers. -/
theorem not_always_confined :
    ¬ ∀ (o : Orchestrator) (identities : IdentityStore) (config : Config) (request : Request)
        (s : Session), o.capability = .linux identities .table config →
      o.AskOnlyAnswers → o.ConfirmKeepsStores request →
      ∀ h, o.validate request s.host = .ok () h →
      ∀ p, (o.sessionAfter request s).host.cgroups.owners.get? p ≠
          s.host.cgroups.owners.get? p →
        ∃ c : CgroupSubsystem, p.isBelow (c.directory config.cgroupRoot) = true := by
  intro hconfined
  obtain ⟨c, hbelow⟩ := hconfined onGroupTable .posix {} { cgroupGroup := some "/srv/data" }
    ⟨srvHost, none⟩ rfl onGroupTable_quiet (onGroupTable_keepsStores _) _ rfl
    (Path.ofString "/srv/data/secret") (by decide +kernel)
  revert hbelow
  cases c <;> decide

end Orchestrator

end Provisioning
