/-
# `Provisioning.Proofs.Cgroup.Table` — what provisioning makes of the table

On the hierarchy kept in memory a group is provisioned as a whole or not at
all: a call is refused for what the table is, not for its path, so the first
call decides.  What changes hands is decided by the paths alone: each of them
is there afterwards and belongs to the owner, and so does whatever lay within
one of them.

    CgroupTable.provisioned owner paths     the table after all calls
    ownerAfter owner paths p old            who owns `p` afterwards, if `old` did before

**Stated here.**  A run for an isolation group on the table returns with
exactly this change of owners, or fails with none (`owners_of_run_table`).
-/
import Provisioning.Proofs.Cgroup.Group
import Provisioning.Proofs.Cgroup.Paths
import Provisioning.Proofs.Host.Outcome

namespace Provisioning

/-- Who owns a path once some paths were provisioned for an owner. -/
def ownerAfter (owner : String) (paths : List Path) (p : Path) (old : Option String) :
    Option String :=
  if p ∈ paths then some owner
  else if paths.any p.isWithin then old.map fun _ => owner
  else old

section OwnerAfter
variable {owner : String} {paths : List Path} {p path : Path} {old : Option String}

theorem ownerAfter_of_mem (hp : p ∈ paths) : ownerAfter owner paths p old = some owner := if_pos hp

/-- What lies in none of the paths keeps its owner. -/
theorem ownerAfter_of_outside (hp : ∀ q ∈ paths, p.isWithin q = false) :
    ownerAfter owner paths p old = old := by
  have hnot : p ∉ paths := fun hmem => by
    have hself := hp p hmem
    rw [p.isWithin_self] at hself
    exact nomatch hself
  have hany : paths.any p.isWithin = false := by simpa using hp
  rw [ownerAfter, if_neg hnot, hany]
  rfl

theorem ownerAfter_cons :
    ownerAfter owner paths p (ownerAfter owner [path] p old) =
      ownerAfter owner (path :: paths) p old := by
  by_cases hp : p ∈ paths
  · rw [ownerAfter_of_mem hp, ownerAfter_of_mem (List.mem_cons_of_mem _ hp)]
  · by_cases hpath : p = path
    · subst hpath
      rw [ownerAfter_of_mem (List.mem_singleton_self p), ownerAfter_of_mem List.mem_cons_self,
        ownerAfter, if_neg hp]
      split <;> rfl
    · by_cases hwithin : p.isWithin path = true <;> by_cases hany : paths.any p.isWithin = true <;>
        simp [ownerAfter, hp, hpath, hwithin, hany, Function.comp_def]

end OwnerAfter

/-! ## The table -/

namespace CgroupTable

/-- The table in which a directory was made and given to an owner. -/
def provisionedOne (t : CgroupTable) (owner : String) (path : Path) : CgroupTable :=
  (((t.noted (.makeDirectory path)).withDirectory path).noted (.changeOwner path)).ownedWithin path
    owner

/-- The table in which directories were made and given to an owner, in order. -/
def provisioned (t : CgroupTable) (owner : String) (paths : List Path) : CgroupTable :=
  paths.foldl (fun t path => t.provisionedOne owner path) t

/-- Calls are not refused. -/
def Answers (t : CgroupTable) : Prop := t.elevated = true ∧ t.interrupts = false

instance (t : CgroupTable) : Decidable t.Answers := inferInstanceAs (Decidable (_ ∧ _))

theorem withDirectory_flags (t : CgroupTable) (path : Path) :
    (t.withDirectory path).elevated = t.elevated ∧
      (t.withDirectory path).interrupts = t.interrupts := by
  unfold withDirectory
  split <;> exact ⟨rfl, rfl⟩

theorem answers_provisionedOne {t : CgroupTable} (hanswers : t.Answers) (owner : String)
    (path : Path) : (t.provisionedOne owner path).Answers := by
  obtain ⟨helevated, hinterrupts⟩ := (t.noted (.makeDirectory path)).withDirectory_flags path
  exact ⟨helevated.trans hanswers.1, hinterrupts.trans hanswers.2⟩

theorem get?_withDirectory (t : CgroupTable) (path p : Path) :
    (t.withDirectory path).owners.get? p =
      if p = path then some ((t.owners.get? p).getD "root") else t.owners.get? p := by
  unfold withDirectory
  by_cases hpath : p = path
  · subst hpath
    rw [if_pos rfl]
    cases hold : t.owners.get? p with
    | none =>
        rw [if_neg (by simp [Table.contains, hold])]
        exact Table.get?_put_self _ _ _
    | some old =>
        rw [if_pos (by simp [Table.contains, hold])]
        exact hold
  · rw [if_neg hpath]
    split
    · rfl
    · exact Table.get?_put_of_ne _ (Ne.symm hpath) _

theorem get?_provisionedOne (t : CgroupTable) (owner : String) (path p : Path) :
    (t.provisionedOne owner path).owners.get? p =
      ownerAfter owner [path] p (t.owners.get? p) := by
  have hgiven : (t.provisionedOne owner path).owners.get? p =
      (((t.noted (.makeDirectory path)).withDirectory path).owners.get? p).map fun old =>
        if p.isWithin path then owner else old := Table.get?_mapValues _ _ p
  rw [hgiven, get?_withDirectory]
  by_cases hpath : p = path
  · subst hpath
    rw [if_pos rfl, ownerAfter_of_mem (List.mem_singleton_self p)]
    simp [p.isWithin_self]
  · rw [if_neg hpath, ownerAfter, if_neg (by simpa using hpath), List.any_cons, List.any_nil,
      Bool.or_false]
    cases p.isWithin path with
    | true => rfl
    | false => exact Option.map_id' ..

/-- Who owns what after the directories of a list were made and given to an owner. -/
theorem get?_provisioned (owner : String) (p : Path) :
    ∀ (paths : List Path) (t : CgroupTable),
      (t.provisioned owner paths).owners.get? p = ownerAfter owner paths p (t.owners.get? p)
  | [], _ => rfl
  | path :: rest, t => by
      rw [← ownerAfter_cons, ← get?_provisionedOne]
      exact get?_provisioned owner p rest (t.provisionedOne owner path)

end CgroupTable

/-! ## Calls on the table -/

open Run

section Calls
variable {t : CgroupTable} {path : Path} {owner : String}

theorem gives_note_cgroups (e : Event) (t : CgroupTable) : Gives Host.cgroups (note e) t () t :=
  gives_modify fun _ hx => hx

theorem gives_log_cgroups (level : LogLevel) (source : LogSource) (message : String)
    (t : CgroupTable) : Gives Host.cgroups (Run.log level source message) t () t :=
  gives_note_cgroups _ t

/-- A call is counted, whatever comes of it. -/
theorem gives_countCall (t : CgroupTable) (call : CgroupCall) :
    Gives Host.cgroups (modify fun h => { h with cgroups := h.cgroups.noted call }) t ⟨⟩
      (t.noted call) :=
  gives_modify fun _ hx => by rw [← hx]

namespace CgroupFilesystem

theorem gives_ensureDirectory_table (hanswers : t.Answers) (path : Path) :
    Gives Host.cgroups (ensureDirectory .table path) t (!t.owners.contains path)
      ((t.noted (.makeDirectory path)).withDirectory path) := by
  refine Gives.bind (gives_note_cgroups _ t) (gives_get_bind fun h ht => ?_)
  subst ht
  refine Gives.ite_neg (by simp [hanswers.2]) ?_
  refine Gives.bind (gives_countCall h.cgroups (.makeDirectory path)) ?_
  refine Gives.ite_neg (by simp [hanswers.1]) ?_
  exact Gives.bind (gives_modify fun x hx => by rw [← hx]) (gives_pure _ _)

/-- Without elevation a directory is refused, and the refused call counts as made. -/
theorem fails_ensureDirectory_unelevated (hcalm : t.interrupts = false)
    (helevated : t.elevated = false) (path : Path) :
    Fails Host.cgroups (ensureDirectory .table path) t (· = CgroupTable.denial path)
      (t.noted (.makeDirectory path)) := by
  refine Gives.bind_fails (gives_note_cgroups _ t) (fails_get_bind fun h ht => ?_)
  subst ht
  refine Fails.ite_neg (by simp [hcalm]) ?_
  refine Gives.bind_fails (gives_countCall h.cgroups (.makeDirectory path)) ?_
  exact Fails.ite_pos (by simp [helevated]) (Fails.bind (fails_throw_self _ _) _)

theorem fails_ensureDirectory_table (hrefuses : ¬ t.Answers) (path : Path) :
    ∃ t', t'.owners = t.owners ∧
      Fails Host.cgroups (ensureDirectory .table path) t (fun _ => True) t' := by
  cases hinterrupts : t.interrupts with
  | true =>
      refine ⟨t, rfl, Gives.bind_fails (gives_note_cgroups _ t) (fails_get_bind fun h ht => ?_)⟩
      subst ht
      exact Fails.ite_pos hinterrupts ((fails_throw trivial _).bind _)
  | false =>
      have helevated : t.elevated = false := by
        cases he : t.elevated with
        | true => exact absurd ⟨he, hinterrupts⟩ hrefuses
        | false => rfl
      exact ⟨t.noted (.makeDirectory path), rfl,
        (fails_ensureDirectory_unelevated hinterrupts helevated path).mono fun _ _ => trivial⟩

theorem gives_changeOwner_table (hanswers : t.Answers) (path : Path) (owner : String) :
    Gives Host.cgroups (changeOwner .table path owner) t ()
      ((t.noted (.changeOwner path)).ownedWithin path owner) := by
  refine Gives.bind (gives_note_cgroups _ t) (gives_get_bind fun h ht => ?_)
  subst ht
  refine Gives.bind (gives_countCall h.cgroups (.changeOwner path)) ?_
  refine Gives.ite_neg (by simp [hanswers.1]) ?_
  exact gives_modify fun x hx => by rw [← hx]

end CgroupFilesystem

namespace CgroupProvisioner

variable {p : CgroupProvisioner}

theorem gives_provisionOne_table (htable : p.filesystem = .table) (hanswers : t.Answers)
    (owner : String) (path : Path) :
    Gives Host.cgroups (p.provisionOne owner path) t () (t.provisionedOne owner path) := by
  have hmade := (t.noted (.makeDirectory path)).withDirectory_flags path
  have hrest : Gives Host.cgroups (do
      p.filesystem.changeOwner path owner
      Run.log .debug .cgroups ("Owner of " ++ path.toString ++ " set to '" ++ owner ++ "'"))
      ((t.noted (.makeDirectory path)).withDirectory path) () (t.provisionedOne owner path) := by
    rw [htable]
    exact (CgroupFilesystem.gives_changeOwner_table
      ⟨hmade.1.trans hanswers.1, hmade.2.trans hanswers.2⟩ path owner).bind
        (gives_log_cgroups _ _ _ _)
  unfold provisionOne
  rw [htable] at hrest ⊢
  refine (CgroupFilesystem.gives_ensureDirectory_table hanswers path).bind ?_
  dsimp only
  split <;> exact (gives_log_cgroups _ _ _ _).bind hrest

theorem gives_provisionEach_table (htable : p.filesystem = .table) (owner : String) :
    ∀ (paths : List Path) {t : CgroupTable}, t.Answers →
      Gives Host.cgroups (p.provisionEach owner paths) t () (t.provisioned owner paths)
  | [], t, _ => gives_pure () t
  | path :: rest, _, hanswers =>
      (gives_provisionOne_table htable hanswers owner path).bind
        (gives_provisionEach_table htable owner rest
          (CgroupTable.answers_provisionedOne hanswers owner path))

theorem fails_provisionEach_table (htable : p.filesystem = .table) (hrefuses : ¬ t.Answers)
    (owner : String) (path : Path) (rest : List Path) :
    ∃ t', t'.owners = t.owners ∧
      Fails Host.cgroups (p.provisionEach owner (path :: rest)) t (fun _ => True) t' := by
  obtain ⟨t', howners, hfails⟩ := CgroupFilesystem.fails_ensureDirectory_table hrefuses path
  rw [← htable] at hfails
  exact ⟨t', howners, (hfails.bind _).bind _⟩

theorem gives_notOwned_table (htable : p.filesystem = .table) (owner : String) :
    ∀ specs : List CgroupSpec,
      (∀ s ∈ specs, t.owners.get? (s.path p.root) = some owner) →
      Gives Host.cgroups (p.notOwned owner specs) t [] t
  | [], _ => gives_pure _ _
  | s :: rest, hall => by
      have hfound : Gives Host.cgroups (p.filesystem.ownerOf (s.path p.root)) t (some owner) t := by
        rw [htable]
        refine gives_get_bind fun h ht => ?_
        subst ht
        exact hall s List.mem_cons_self ▸ gives_pure _ _
      refine hfound.bind ((gives_notOwned_table htable owner rest
        fun s hs => hall s (List.mem_cons_of_mem _ hs)).bind ?_)
      rw [if_pos rfl]
      exact gives_pure _ _

/-- The directories of a group are provisioned on the table as a whole or not at all. -/
theorem of_provisionEach_table (htable : p.filesystem = .table) (owner group : String) (h : Host) :
    (∃ h', p.provisionEach owner (groupPaths p.root group) h = .ok () h' ∧
      h'.cgroups = h.cgroups.provisioned owner (groupPaths p.root group)) ∨
    ∃ e h', p.provisionEach owner (groupPaths p.root group) h = .error e h' ∧
      h'.cgroups.owners = h.cgroups.owners := by
  by_cases hanswers : h.cgroups.Answers
  · exact .inl (gives_provisionEach_table htable owner (groupPaths p.root group) hanswers h rfl)
  · obtain ⟨t', howners, hfails⟩ := fails_provisionEach_table htable hanswers owner
      (groupPath p.root group .blkio) _
    obtain ⟨e, h', hended, -, hseen⟩ := hfails h rfl
    exact .inr ⟨e, h', hended, by rw [hseen, howners]⟩

/-- Provisioning a group on the table changes its owners by exactly the group, or not. -/
theorem ProvisionEnds.on_table {group owner : String} {h : Host}
    {result : EStateM.Result Fault Host (List Path)} (hends : ProvisionEnds p group owner h result)
    (htable : p.filesystem = .table) :
    match result with
    | .ok _ h' => h'.cgroups = h.cgroups.provisioned owner (groupPaths p.root group)
    | .error _ h' => h'.cgroups.owners = h.cgroups.owners := by
  have hasked := p.leads_ownerIsKnown owner
  cases hends with
  | unasked hknown => exact congrArg CgroupTable.owners (hasked.of_error hknown)
  | unknown hknown => exact congrArg CgroupTable.owners (hasked.of_ok hknown)
  | unnamed hknown hgroup => exact congrArg CgroupTable.owners (hasked.of_ok hknown)
  | @failed specs e h₁ h₂ hknown hgroup heach =>
      obtain ⟨h', hok, -⟩ | ⟨e', h', herror, howners⟩ :=
        of_provisionEach_table htable owner group h₁
      · rw [heach] at hok
        exact nomatch hok
      · rw [heach] at herror
        cases herror
        rw [← hasked.of_ok hknown]
        exact howners
  | @provisioned specs h₁ h₂ hknown hgroup heach =>
      obtain ⟨h', hok, hcgroups⟩ | ⟨e', h', herror, -⟩ :=
        of_provisionEach_table htable owner group h₁
      · rw [heach] at hok
        cases hok
        rw [← hasked.of_ok hknown]
        exact hcgroups
      · rw [heach] at herror
        exact nomatch herror

end CgroupProvisioner

end Calls

/-! ## A whole run on the table -/

namespace Capability

variable {identities : IdentityStore} {config : Config} {request : Request} {h : Host} {r : Report}

/-- What was provisioned on the table is found to belong to its owner. -/
theorem verify_of_provision_table {group owner : String} {h' : Host} {paths : List Path}
    (hprovision : (provisioner identities .table config).provision group owner h = .ok paths h') :
    ∃ h'', (provisioner identities .table config).verify group owner h' = .ok [] h'' := by
  have hends := (provisioner identities .table config).provisionEnds_provision group owner h
  rw [hprovision] at hends
  have hcgroups := hends.on_table rfl
  dsimp only at hcgroups
  cases hends with
  | @provisioned specs h₁ h₂ hknown hgroup heach =>
      have howned : ∀ s ∈ specs,
          h'.cgroups.owners.get? (s.path config.cgroupRoot) = some owner := by
        intro s hs
        have hmem : s.path config.cgroupRoot ∈ groupPaths config.cgroupRoot group :=
          paths_forGroup hgroup config.cgroupRoot ▸ List.mem_map_of_mem hs
        rw [hcgroups, CgroupTable.get?_provisioned]
        exact ownerAfter_of_mem hmem
      obtain ⟨h'', hverify, -⟩ := CgroupProvisioner.gives_notOwned_table
        (p := provisioner identities .table config) rfl owner specs howned h' rfl
      refine ⟨h'', ?_⟩
      rw [CgroupProvisioner.verify, hgroup]
      exact hverify

/-- The steps of a group on the table end with exactly its change of owners, or fail with none. -/
theorem GroupEnds.on_table {result : EStateM.Result Fault Progress Unit}
    (hends : GroupEnds identities .table config request h r result) :
    match result with
    | .ok _ p => ∃ owner, p.report.target = some owner ∧
        p.host.cgroups = h.cgroups.provisioned owner.name
          (groupPaths config.cgroupRoot (groupOf config request))
    | .error _ p => p.host.cgroups.owners = h.cgroups.owners := by
  have hlooked := IdentityStore.looked_resolve identities request.cgroupOwner
  have hprovisionEnds := fun owner => (provisioner identities .table config).provisionEnds_provision
    (groupOf config request) owner
  cases hends with
  | ownerless hresolve => exact congrArg CgroupTable.owners (hlooked.of_error hresolve).cgroups_eq
  | @unprovisioned owner e h₁ h₂ hresolve hprovision =>
      have hends := hprovision ▸ hprovisionEnds owner.name _
      exact (hends.on_table rfl).trans
        (congrArg CgroupTable.owners (hlooked.of_ok hresolve).cgroups_eq)
  | unverified hresolve hprovision hverify =>
      obtain ⟨h₃, hfound⟩ := verify_of_provision_table hprovision
      rw [hverify.2] at hfound
      exact nomatch hfound
  | misowned hresolve hprovision hverify hne =>
      obtain ⟨h₃, hfound⟩ := verify_of_provision_table hprovision
      rw [hverify.2] at hfound
      cases hfound
      exact absurd rfl hne
  | @provisioned owner paths h₁ h₂ hresolve hprovision hverify =>
      have hends := hprovision ▸ hprovisionEnds owner.name _
      have hcgroups := hends.on_table rfl
      rw [← (hlooked.of_ok hresolve).cgroups_eq]
      exact ⟨owner, rfl, hcgroups⟩

end Capability

namespace Orchestrator

variable {o : Orchestrator} {identities : IdentityStore} {config : Config} {request : Request}

/-- **A group on the table.**  A run for an isolation group returns with exactly the group's change
of owners, for the owner that the report names; and when it fails, nothing changed hands. -/
theorem owners_of_run_table (hlinux : o.capability = .linux identities .table config)
    (hkeeps : ∀ h, ((o.confirm request).hostAfter h).cgroups = h.cgroups) (s : Session) :
    match o.run request s with
    | .ok report s' => ∃ owner, report.target = some owner ∧ ∀ p,
        s'.host.cgroups.owners.get? p =
          ownerAfter owner.name
            (groupPaths config.cgroupRoot (Capability.groupOf config request)) p
            (s.host.cgroups.owners.get? p)
    | .error _ s' => s'.host.cgroups.owners = s.host.cgroups.owners := by
  obtain ⟨hbegun, hunbegun⟩ := view_eq_of_confirm Host.cgroups (s := s)
    (fun _ hlooked => hlooked.cgroups_eq) hkeeps
  have hends := endsGroup_run hlinux request s
  revert hends
  generalize o.run request s = result
  intro hends
  cases hends with
  | unbegun hended => exact congrArg CgroupTable.owners (hunbegun _ _ hended)
  | failed hbegins hgroup =>
      exact hgroup.on_table.trans (congrArg CgroupTable.owners (hbegun _ hbegins))
  | @returned h p hbegins hgroup =>
      obtain ⟨owner, htarget, hcgroups⟩ := hgroup.on_table
      refine ⟨owner, htarget, fun q => ?_⟩
      rw [← hbegun h hbegins, ← CgroupTable.get?_provisioned, ← hcgroups]
      rfl

end Orchestrator

end Provisioning
