/-
# `Provisioning.Proofs.Cgroup.Settled` — a group on the table, from the call to its repetition

What a call of the provisioner does to a hierarchy in memory is told by three
questions, asked in this order.

    the owner is an account?      if not, no call is made on the hierarchy
    the hierarchy is elevated?    if not, one directory is asked for, and nothing changes
    otherwise                     the directories are there, and all within them is the owner's

A path is settled for an owner when it is there and every row within it is the
owner's.  A round makes its path settled, and keeps settled what other rounds
of the same owner made so, whether the paths coincide or lie within one
another; and a round on a settled path changes no row.  So the second call
finds nothing to do.

**Stated here.**  The three answers, with the value returned, the failure, the
directories, the owners, what `verify` finds, and the repeated call
(`provision_on_table`).
-/
import Provisioning.Proofs.Cgroup.Table

namespace Provisioning

open Run

/-! ## Settled paths -/

theorem Table.mem_rows_put {α β : Type} [DecidableEq α] {t : Table α β} {k : α} {v : β}
    {row : α × β} (hrow : row ∈ (t.put k v).rows) : row = (k, v) ∨ row ∈ t.rows := by
  revert hrow
  rw [Table.put]
  dsimp only
  induction t.rows with
  | nil => simp [Table.putIn]
  | cons r rs ih =>
      obtain ⟨k', v'⟩ := r
      by_cases hk : k' = k
      · rw [Table.putIn, if_pos hk]
        rintro (_ | ⟨_, hrow⟩)
        · exact .inl rfl
        · exact .inr (List.mem_cons_of_mem _ hrow)
      · rw [Table.putIn, if_neg hk]
        rintro (_ | ⟨_, hrow⟩)
        · exact .inr List.mem_cons_self
        · exact (ih hrow).imp_right (List.mem_cons_of_mem _)

namespace CgroupTable

variable {t : CgroupTable} {owner : String} {path : Path}

/-- The path is there, and every row within it is the owner's. -/
def Settled (t : CgroupTable) (owner : String) (path : Path) : Prop :=
  t.owners.contains path = true ∧
    ∀ row ∈ t.owners.rows, row.1.isWithin path = true → row.2 = owner

theorem mem_rows_withDirectory {row : Path × String}
    (hrow : row ∈ (t.withDirectory path).owners.rows) :
    row = (path, "root") ∨ row ∈ t.owners.rows := by
  unfold withDirectory at hrow
  split at hrow
  · exact .inr hrow
  · exact Table.mem_rows_put hrow

/-- A row after a round is the owner's if it is within the path, and an old one if not. -/
theorem mem_rows_provisionedOne {row : Path × String}
    (hrow : row ∈ (t.provisionedOne owner path).owners.rows) :
    (row.1.isWithin path = true → row.2 = owner) ∧
      (row.1.isWithin path = false → row ∈ t.owners.rows) := by
  obtain ⟨old, hold, rfl⟩ := List.mem_map.1 hrow
  refine ⟨fun hwithin => if_pos hwithin, fun hwithin => ?_⟩
  dsimp only at hwithin ⊢
  rw [if_neg (by simp [hwithin])]
  rcases mem_rows_withDirectory hold with rfl | hold
  · rw [path.isWithin_self] at hwithin
    exact nomatch hwithin
  · exact hold

theorem contains_provisionedOne (owner : String) {q : Path}
    (hq : q = path ∨ t.owners.contains q = true) :
    (t.provisionedOne owner path).owners.contains q = true := by
  rw [Table.contains, get?_provisionedOne]
  by_cases hpath : q = path
  · rw [ownerAfter_of_mem (List.mem_singleton.2 hpath)]
    rfl
  · obtain ⟨old, hold⟩ := Option.isSome_iff_exists.1 (hq.resolve_left hpath)
    rw [hold, ownerAfter, if_neg (by simpa using hpath)]
    split <;> rfl

theorem settled_provisionedOne_self (t : CgroupTable) (owner : String) (path : Path) :
    (t.provisionedOne owner path).Settled owner path :=
  ⟨contains_provisionedOne owner (.inl rfl), fun _ hrow => (mem_rows_provisionedOne hrow).1⟩

/-- A round keeps settled what is settled for its owner, wherever that lies. -/
theorem Settled.provisionedOne {q : Path} (hq : t.Settled owner q) (path : Path) :
    (t.provisionedOne owner path).Settled owner q := by
  refine ⟨contains_provisionedOne owner (.inr hq.1), fun row hrow hwithin => ?_⟩
  obtain ⟨hnew, hold⟩ := mem_rows_provisionedOne hrow
  cases hpath : row.1.isWithin path with
  | true => exact hnew hpath
  | false => exact hq.2 row (hold hpath) hwithin

theorem Settled.provisioned {q : Path} :
    ∀ {t : CgroupTable} (_ : t.Settled owner q) (paths : List Path),
      (t.provisioned owner paths).Settled owner q
  | _, hq, [] => hq
  | _, hq, path :: rest => (hq.provisionedOne path).provisioned rest

theorem settled_provisioned :
    ∀ {paths : List Path} (t : CgroupTable), path ∈ paths →
      (t.provisioned owner paths).Settled owner path
  | _ :: rest, t, .head _ => (t.settled_provisionedOne_self owner path).provisioned rest
  | first :: _, t, .tail _ hpath => settled_provisioned (t.provisionedOne owner first) hpath

/-- A round on a settled path changes no row. -/
theorem Settled.owners_provisionedOne (hsettled : t.Settled owner path) :
    (t.provisionedOne owner path).owners = t.owners := by
  have hmade : ((t.noted (.makeDirectory path)).withDirectory path).owners = t.owners := by
    unfold withDirectory
    rw [if_pos (show (t.noted _).owners.contains path = true from hsettled.1)]
    rfl
  have hrows : t.owners.rows.map
      (fun r => (r.1, if r.1.isWithin path then owner else r.2)) = t.owners.rows := by
    refine (List.map_congr_left fun row hrow => ?_).trans (List.map_id _)
    cases hwithin : row.1.isWithin path with
    | true =>
        rw [if_pos rfl, ← hsettled.2 row hrow hwithin]
        rfl
    | false => rfl
  calc (t.provisionedOne owner path).owners
      = ((t.noted (.makeDirectory path)).withDirectory path).owners.mapValues
          (fun p old => if p.isWithin path then owner else old) := rfl
    _ = t.owners.mapValues (fun p old => if p.isWithin path then owner else old) := by rw [hmade]
    _ = t.owners := congrArg Table.mk hrows

/-- Rounds on settled paths change no row. -/
theorem owners_provisioned_of_settled :
    ∀ {paths : List Path} {t : CgroupTable}, (∀ path ∈ paths, t.Settled owner path) →
      (t.provisioned owner paths).owners = t.owners
  | [], _, _ => rfl
  | path :: rest, t, hall => by
      have hpath : t.Settled owner path := hall path List.mem_cons_self
      have hrest : ∀ q ∈ rest, (t.provisionedOne owner path).Settled owner q :=
        fun q hq => (hall q (List.mem_cons_of_mem _ hq)).provisionedOne path
      exact (owners_provisioned_of_settled hrest).trans hpath.owners_provisionedOne

/-! ## The directories and their owners -/

/-- `after` is `before` with the directories of a group, and all within them, made over to an
owner. -/
structure HasGroup (root : Path) (group owner : String) (before after : CgroupTable) : Prop where
  directories : ∀ q, q ∈ after.owners.keys ↔ q ∈ before.owners.keys ∨ q ∈ groupPaths root group
  owned : ∀ q ∈ after.owners.keys, (∃ path ∈ groupPaths root group, q.isWithin path = true) →
    after.owners.get? q = some owner
  kept : ∀ q, (∀ path ∈ groupPaths root group, q.isWithin path = false) →
    after.owners.get? q = before.owners.get? q

theorem hasGroup_provisioned (t : CgroupTable) (root : Path) (group owner : String) :
    HasGroup root group owner t (t.provisioned owner (groupPaths root group)) := by
  refine ⟨fun q => ?_, fun q hq hwithin => ?_, fun q houtside => ?_⟩
  · rw [Table.mem_keys_iff, Table.mem_keys_iff, get?_provisioned]
    by_cases hmem : q ∈ groupPaths root group
    · simp [ownerAfter_of_mem hmem, hmem]
    · rw [ownerAfter, if_neg hmem]
      split <;> simp [hmem]
  · have hany : (groupPaths root group).any q.isWithin = true := List.any_eq_true.2 hwithin
    rw [Table.mem_keys_iff] at hq
    rw [get?_provisioned] at hq ⊢
    by_cases hmem : q ∈ groupPaths root group
    · exact ownerAfter_of_mem hmem
    · rw [ownerAfter, if_neg hmem, if_pos hany] at hq ⊢
      rw [Option.isSome_map] at hq
      obtain ⟨old, hold⟩ := Option.isSome_iff_exists.1 hq
      rw [hold]
      rfl
  · rw [get?_provisioned, ownerAfter_of_outside houtside]

end CgroupTable

/-! ## A call and its repetition -/

namespace CgroupProvisioner

variable {p : CgroupProvisioner} {group owner : String} {h : Host}

/-- The owner has a name, and is an account wherever there are accounts to check against. -/
def Knows (p : CgroupProvisioner) (owner : String) (h : Host) : Prop :=
  owner ≠ "" ∧ ∀ store, p.identities = some store → ∃ h', store.exists? owner h = .ok true h'

/-- The owner has no name, or the accounts say that there is no such account. -/
def Misses (p : CgroupProvisioner) (owner : String) (h : Host) : Prop :=
  owner = "" ∨ ∃ store h', p.identities = some store ∧ store.exists? owner h = .ok false h'

theorem Knows.ownerIsKnown (hknows : p.Knows owner h) :
    ∃ h', p.ownerIsKnown owner h = .ok true h' := by
  unfold CgroupProvisioner.ownerIsKnown
  rw [if_neg hknows.1]
  cases hstore : p.identities with
  | none => exact ⟨h, rfl⟩
  | some store => exact hknows.2 store hstore

theorem Misses.ownerIsKnown (hmisses : p.Misses owner h) :
    ∃ h', p.ownerIsKnown owner h = .ok false h' := by
  unfold CgroupProvisioner.ownerIsKnown
  by_cases hname : owner = ""
  · rw [if_pos hname]
    exact ⟨h, rfl⟩
  · obtain ⟨store, h', hstore, hasked⟩ := hmisses.resolve_left hname
    rw [if_neg hname, hstore]
    exact ⟨h', hasked⟩

/-- On an elevated hierarchy the directories of a group are returned and belong to the owner. -/
theorem provision_of_elevated (htable : p.filesystem = .table) (hgroup : group ≠ "")
    (hanswers : h.cgroups.Answers) (hknows : p.Knows owner h) :
    ∃ h', p.provision group owner h = .ok (groupPaths p.root group) h' ∧
      h'.cgroups = h.cgroups.provisioned owner (groupPaths p.root group) := by
  obtain ⟨h₁, hknown⟩ := hknows.ownerIsKnown
  have hsame : h₁.cgroups = h.cgroups := (p.leads_ownerIsKnown owner).of_ok hknown
  rw [← hsame] at hanswers ⊢
  obtain ⟨h', heach, hcgroups⟩ :=
    gives_provisionEach_table htable owner (groupPaths p.root group) hanswers h₁ rfl
  exact ⟨h', by rw [provision_of_known hknown (CgroupSpec.forGroup_of_ne hgroup),
    bind_apply_of_ok heach]; rfl, hcgroups⟩

/-- Without elevation the first directory of a group is refused, and no other is asked for. -/
theorem provision_of_unelevated (htable : p.filesystem = .table) (hgroup : group ≠ "")
    (hcalm : h.cgroups.interrupts = false) (helevated : h.cgroups.elevated = false)
    (hknows : p.Knows owner h) :
    ∃ h', p.provision group owner h =
        .error (CgroupTable.denial (groupPath p.root group .blkio)) h' ∧
      h'.cgroups = h.cgroups.noted (.makeDirectory (groupPath p.root group .blkio)) := by
  obtain ⟨h₁, hknown⟩ := hknows.ownerIsKnown
  have hsame : h₁.cgroups = h.cgroups := (p.leads_ownerIsKnown owner).of_ok hknown
  rw [← hsame] at hcalm helevated ⊢
  have hmade := CgroupFilesystem.fails_ensureDirectory_unelevated hcalm helevated
    (groupPath p.root group .blkio)
  rw [← htable] at hmade
  have heach : Fails Host.cgroups (p.provisionEach owner (groupPaths p.root group)) h₁.cgroups
      (· = CgroupTable.denial (groupPath p.root group .blkio)) _ := (hmade.bind _).bind _
  obtain ⟨e, h', hended, rfl, hcgroups⟩ := heach h₁ rfl
  exact ⟨h', by rw [provision_of_known hknown (CgroupSpec.forGroup_of_ne hgroup),
    bind_apply_of_error hended], hcgroups⟩

/-- An owner who is no account is refused before any call on the hierarchy. -/
theorem provision_of_missing (group : String) (hmisses : p.Misses owner h) :
    ∃ h', p.provision group owner h = .error (IdentityStore.unknownAccount owner) h' ∧
      h'.cgroups = h.cgroups := by
  obtain ⟨h₁, hknown⟩ := hmisses.ownerIsKnown
  exact ⟨h₁, bind_apply_of_ok hknown _, (p.leads_ownerIsKnown owner).of_ok hknown⟩

/-- What was provisioned is found to belong to its owner. -/
theorem verify_of_provisioned {t : CgroupTable} (htable : p.filesystem = .table)
    (hgroup : group ≠ "") (hcgroups : h.cgroups = t.provisioned owner (groupPaths p.root group)) :
    p.verify group owner h = .ok [] h := by
  have hspecs := CgroupSpec.forGroup_of_ne hgroup
  obtain ⟨h', hverify, -⟩ := gives_notOwned_table htable owner
    (CgroupSubsystem.all.map fun subsystem => { group, subsystem, named := hgroup })
    (fun s hs => by
      rw [hcgroups, CgroupTable.get?_provisioned]
      exact ownerAfter_of_mem (paths_forGroup hspecs p.root ▸ List.mem_map_of_mem hs)) h rfl
  have hended : p.verify group owner h = .ok [] h' := by
    rw [verify, hspecs]
    exact hverify
  rw [hended, (p.leads_verify group owner).of_ok hended]

/-- Once a group was provisioned, another call for it and its owner changes no owner, whatever the
accounts now say of that owner. -/
theorem owners_of_provision_again {t : CgroupTable} (htable : p.filesystem = .table)
    (hcgroups : h.cgroups = t.provisioned owner (groupPaths p.root group)) :
    ((p.provision group owner).hostAfter h).cgroups.owners = h.cgroups.owners := by
  have hsettled : ∀ path ∈ groupPaths p.root group, h.cgroups.Settled owner path :=
    fun path hpath => hcgroups ▸ t.settled_provisioned hpath
  have hends := p.provisionEnds_provision group owner h
  cases hended : p.provision group owner h with
  | error e h' =>
      rw [hended] at hends
      rw [hostAfter_of_error hended]
      exact hends.on_table htable
  | ok paths h' =>
      rw [hended] at hends
      rw [hostAfter_of_ok hended, hends.on_table htable]
      exact CgroupTable.owners_provisioned_of_settled hsettled

/-- **Provisioning a group on the table.**  With elevation the directories are returned in the order
of the controllers; they are there, and all within them is the owner's, while everything else is as it
was; verifying finds nothing wrong, and the same call again changes no owner.  Without elevation one
directory is asked for and refused.  An owner who is no account is refused before any call. -/
theorem provision_on_table (p : CgroupProvisioner) (htable : p.filesystem = .table)
    (group owner : String) (hgroup : group ≠ "") (h : Host)
    (hcalm : h.cgroups.interrupts = false) :
    (p.Knows owner h → h.cgroups.elevated = true →
      ∃ h', p.provision group owner h = .ok (groupPaths p.root group) h' ∧
        CgroupTable.HasGroup p.root group owner h.cgroups h'.cgroups ∧
        p.verify group owner h' = .ok [] h' ∧
        ((p.provision group owner).hostAfter h').cgroups.owners = h'.cgroups.owners) ∧
    (p.Knows owner h → h.cgroups.elevated = false →
      ∃ h', p.provision group owner h =
          .error (CgroupTable.denial (groupPath p.root group .blkio)) h' ∧
        h'.cgroups.calls =
          h.cgroups.calls ++ [.makeDirectory (groupPath p.root group .blkio)] ∧
        h'.cgroups.owners = h.cgroups.owners) ∧
    (p.Misses owner h →
      ∃ h', p.provision group owner h = .error (IdentityStore.unknownAccount owner) h' ∧
        h'.cgroups.calls = h.cgroups.calls ∧ h'.cgroups.owners = h.cgroups.owners) := by
  refine ⟨fun hknows helevated => ?_, fun hknows helevated => ?_, fun hmisses => ?_⟩
  · obtain ⟨h', hended, hcgroups⟩ :=
      provision_of_elevated htable hgroup ⟨helevated, hcalm⟩ hknows
    exact ⟨h', hended, hcgroups ▸ h.cgroups.hasGroup_provisioned p.root group owner,
      verify_of_provisioned htable hgroup hcgroups, owners_of_provision_again htable hcgroups⟩
  · obtain ⟨h', hended, hcgroups⟩ := provision_of_unelevated htable hgroup hcalm helevated hknows
    exact ⟨h', hended, by rw [hcgroups]; rfl, by rw [hcgroups]; rfl⟩
  · obtain ⟨h', hended, hcgroups⟩ := provision_of_missing group hmisses
    exact ⟨h', hended, by rw [hcgroups], by rw [hcgroups]⟩

/-- A host with directories of two groups, one of them within another. -/
def tenantHost (elevated : Bool) : Host where
  accounts := .ofNames ["carol"] "operator"
  cgroups :=
    { elevated
      owners := .ofRows
        [(Path.ofString "/sys/fs/cgroup/memory/sp", "alice"),
          (Path.ofString "/sys/fs/cgroup/memory/sp/job", "alice"),
          (Path.ofString "/sys/fs/cgroup/memory/other", "bob")] }

/-- Provisions on the table and asks the table of accounts. -/
def onTenants : CgroupProvisioner := { filesystem := .table, identities := some .table }

theorem knows_carol (elevated : Bool) : onTenants.Knows "carol" (tenantHost elevated) := by
  refine ⟨by decide, ?_⟩
  rintro store ⟨⟩
  refine ⟨tenantHost elevated, ?_⟩
  cases elevated <;> rfl

theorem misses_dave : onTenants.Misses "dave" (tenantHost true) :=
  .inr ⟨.table, tenantHost true, rfl, rfl⟩

/-- The group `sp` is provisioned for Carol, refused without elevation, and refused for Dave. -/
theorem provision_on_table_carol :
    let paths := groupPaths (Path.ofString "/sys/fs/cgroup") "sp"
    let first := Path.ofString "/sys/fs/cgroup/blkio/sp"
    (∃ h', onTenants.provision "sp" "carol" (tenantHost true) = .ok paths h' ∧
      h'.cgroups.owners.get? (Path.ofString "/sys/fs/cgroup/memory/sp/job") = some "carol" ∧
      h'.cgroups.owners.get? (Path.ofString "/sys/fs/cgroup/memory/other") = some "bob" ∧
      onTenants.verify "sp" "carol" h' = .ok [] h' ∧
      ((onTenants.provision "sp" "carol").hostAfter h').cgroups.owners = h'.cgroups.owners) ∧
    (∃ h', onTenants.provision "sp" "carol" (tenantHost false) =
        .error (CgroupTable.denial first) h' ∧ h'.cgroups.calls = [.makeDirectory first]) ∧
    ∃ h', onTenants.provision "sp" "dave" (tenantHost true) =
        .error (IdentityStore.unknownAccount "dave") h' ∧ h'.cgroups.calls = [] := by
  intro paths first
  have helevated := (provision_on_table onTenants rfl "sp" "carol" (by decide)
    (tenantHost true) rfl).1
  have hunelevated := (provision_on_table onTenants rfl "sp" "carol" (by decide)
    (tenantHost false) rfl).2.1
  have hmissing := (provision_on_table onTenants rfl "sp" "dave" (by decide)
    (tenantHost true) rfl).2.2
  obtain ⟨h₁, hended, hgroup, hverify, hagain⟩ := helevated (knows_carol true) rfl
  obtain ⟨h₂, hdenied, hcalls, -⟩ := hunelevated (knows_carol false) rfl
  obtain ⟨h₃, hunknown, hnocalls, -⟩ := hmissing misses_dave
  refine ⟨⟨h₁, hended, ?_, ?_, hverify, hagain⟩, ⟨h₂, hdenied, hcalls⟩, h₃, hunknown, hnocalls⟩
  · refine hgroup.owned _ ((hgroup.directories _).2 (.inl (by decide +kernel))) ?_
    exact ⟨_, mem_groupPaths.2 ⟨.memory, rfl⟩, by decide +kernel⟩
  · exact (hgroup.kept _ (by decide +kernel)).trans (by decide +kernel)

end CgroupProvisioner

end Provisioning
