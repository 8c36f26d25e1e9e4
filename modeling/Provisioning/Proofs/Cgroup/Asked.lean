/-
# `Provisioning.Proofs.Cgroup.Asked` — the directories that a run asks for

Every directory of a group is asked for twice, to be made and to be given to
its owner, and the request is written down before the backend gets to it.  So
the journal tells which directories a run has asked for, in which order, with
every backend and however the run ends.

    AsksFor journal act ds    a value: exactly the directories `ds`;  a failure: the first of them

**Stated here.**  Provisioning a group asks for its directories one after the
other, each of them twice (`asksFor_provisionGroup`).
-/
import Provisioning.Proofs.Cgroup.Paths
import Provisioning.Proofs.Consent

namespace Provisioning

/-- The directory of a group that a change is about. -/
def Change.directory? : Change → Option Path
  | .ensureDirectory path => some path
  | .changeOwner path _ => some path
  | _ => none

namespace Journal

/-- The directories that were to be made or to be given away, in order. -/
def directories (j : Journal) : List Path := j.changes.filterMap Change.directory?

@[simp] theorem directories_append (j k : Journal) :
    directories (j ++ k) = j.directories ++ k.directories := by
  simp [directories]

theorem directories_of_changes {j : Journal} (hnone : ∀ c ∈ j.changes, c.directory? = none) :
    j.directories = [] := List.filterMap_eq_nil_iff.2 hnone

end Journal

/-- The step asks for the directories `ds`, in order; if it fails, for the first of them. -/
def AsksFor {σ α : Type} (journal : σ → Journal) (act : EStateM Fault σ α) (ds : List Path) :
    Prop :=
  (∀ x a x', act x = .ok a x' → ∃ es, journal x' = journal x ++ es ∧ es.directories = ds) ∧
    ∀ x e x', act x = .error e x' → ∃ es, journal x' = journal x ++ es ∧ es.directories <+: ds

section Sequence
variable {σ α β : Type} {journal : σ → Journal} {act : EStateM Fault σ α} {ds ds' : List Path}

theorem asksFor_pure (a : α) : AsksFor journal (pure a : EStateM Fault σ α) [] := by
  refine ⟨?_, fun x e x' herror => nomatch herror⟩
  rintro x _ _ ⟨⟩
  exact ⟨[], by simp, rfl⟩

theorem asksFor_throw (e : Fault) (ds : List Path) :
    AsksFor journal (throw e : EStateM Fault σ α) ds := by
  constructor
  · rintro x _ _ ⟨⟩
  · rintro x _ _ ⟨⟩
    exact ⟨[], by simp, List.nil_prefix⟩

theorem AsksFor.bind {next : α → EStateM Fault σ β} (h₁ : AsksFor journal act ds)
    (h₂ : ∀ a, AsksFor journal (next a) ds') : AsksFor journal (act >>= next) (ds ++ ds') := by
  constructor
  · intro x b x'' hok
    cases hact : act x with
    | error e x' =>
        rw [bind_eq_of_error hact] at hok
        exact nomatch hok
    | ok a x' =>
        rw [bind_eq_of_ok hact] at hok
        obtain ⟨es, hj, rfl⟩ := h₁.1 x a x' hact
        obtain ⟨fs, hj', rfl⟩ := (h₂ a).1 x' b x'' hok
        exact ⟨es ++ fs, by rw [hj', hj, List.append_assoc], by simp⟩
  · intro x e x'' herror
    cases hact : act x with
    | error e' x' =>
        rw [bind_eq_of_error hact] at herror
        cases herror
        obtain ⟨es, hj, hprefix⟩ := h₁.2 x _ _ hact
        exact ⟨es, hj, hprefix.trans (List.prefix_append _ _)⟩
    | ok a x' =>
        rw [bind_eq_of_ok hact] at herror
        obtain ⟨es, hj, rfl⟩ := h₁.1 x a x' hact
        obtain ⟨fs, hj', hprefix⟩ := (h₂ a).2 x' e x'' herror
        refine ⟨es ++ fs, by rw [hj', hj, List.append_assoc], ?_⟩
        rw [Journal.directories_append]
        exact (List.prefix_append_right_inj _).2 hprefix

/-- A step that asks for no directory comes before one that does. -/
theorem AsksFor.after {next : α → EStateM Fault σ β} (h₁ : AsksFor journal act [])
    (h₂ : ∀ a, AsksFor journal (next a) ds) : AsksFor journal (act >>= next) ds := h₁.bind h₂

/-- A step that asks for no directory comes after one that does. -/
theorem AsksFor.before {next : α → EStateM Fault σ β} (h₁ : AsksFor journal act ds)
    (h₂ : ∀ a, AsksFor journal (next a) []) : AsksFor journal (act >>= next) ds := by
  have hboth := h₁.bind h₂
  rwa [List.append_nil] at hboth

theorem AsksFor.ite {p : Prop} [Decidable p] {act' : EStateM Fault σ α}
    (h₁ : AsksFor journal act ds) (h₂ : AsksFor journal act' ds) :
    AsksFor journal (if p then act else act') ds := by
  split
  · exact h₁
  · exact h₂

end Sequence

/-! ## Steps on a host, and steps of a run -/

variable {α : Type} {C : Change → Prop} {ds : List Path}

theorem Host.Grows.asksFor_nil {h h' : Host} (hgrows : h.Grows C h')
    (hC : ∀ c, C c → c.directory? = none) :
    ∃ es, h'.journal = h.journal ++ es ∧ es.directories = [] := by
  obtain ⟨es, hj, -, hc⟩ := hgrows
  exact ⟨es, hj, Journal.directories_of_changes fun c hmem => hC c (hc c hmem)⟩

namespace Run

/-- A step that may ask for changes of other kinds only asks for no directory. -/
theorem asksFor_nil {act : Run α} (hgrows : Leads (Host.Grows C) act)
    (hC : ∀ c, C c → c.directory? = none) : AsksFor Host.journal act [] := by
  refine ⟨fun h a h' hok => (hgrows.of_ok hok).asksFor_nil hC, fun h e h' herror => ?_⟩
  obtain ⟨es, hj, hnone⟩ := (hgrows.of_error herror).asksFor_nil hC
  exact ⟨es, hj, hnone ▸ List.prefix_rfl⟩

theorem asksFor_nil_of_quiet {act : Run α} (hgrows : Leads (Host.Grows fun _ => False) act) :
    AsksFor Host.journal act [] := asksFor_nil hgrows fun _ hc => hc.elim

theorem asksFor_note {c : Change} {path : Path} (hpath : c.directory? = some path) :
    AsksFor Host.journal (note (.requested c)) [path] := by
  refine ⟨?_, fun h e h' herror => nomatch herror⟩
  rintro h _ _ ⟨⟩
  refine ⟨[.requested c], rfl, ?_⟩
  simp [Journal.directories, Journal.changes, hpath]

end Run

namespace Step

/-- The journal of a run that has begun. -/
def journal (p : Progress) : Journal := p.host.journal

theorem asksFor_ofRun {act : Run α} (hact : AsksFor Host.journal act ds) :
    AsksFor journal (ofRun act) ds := by
  constructor
  · intro p a p' hok
    unfold ofRun at hok
    cases hrun : act p.host with
    | error e h' =>
        rw [hrun] at hok
        exact nomatch hok
    | ok b h' =>
        rw [hrun] at hok
        cases hok
        exact hact.1 _ _ _ hrun
  · intro p e p' herror
    unfold ofRun at herror
    cases hrun : act p.host with
    | ok b h' =>
        rw [hrun] at herror
        exact nomatch herror
    | error e' h' =>
        rw [hrun] at herror
        cases herror
        exact hact.2 _ _ _ hrun

theorem asksFor_nil {act : Step α} (hgrows : Leads (Host.Grows C) act)
    (hC : ∀ c, C c → c.directory? = none) : AsksFor journal act [] := by
  refine ⟨fun p a p' hok => (hgrows.of_ok hok).asksFor_nil hC, fun p e p' herror => ?_⟩
  obtain ⟨es, hj, hnone⟩ := (hgrows.of_error herror).asksFor_nil hC
  exact ⟨es, hj, hnone ▸ List.prefix_rfl⟩

theorem asksFor_nil_of_quiet {act : Step α} (hgrows : Leads (Host.Grows fun _ => False) act) :
    AsksFor journal act [] := asksFor_nil hgrows fun _ hc => hc.elim

end Step

/-! ## Making and giving away -/

open Run

namespace CgroupFilesystem

theorem asksFor_ensureDirectory (fs : CgroupFilesystem) (path : Path) :
    AsksFor Host.journal (fs.ensureDirectory path) [path] := by
  refine (asksFor_note (by rfl)).before fun _ => asksFor_nil_of_quiet ?_
  cases fs with
  | table => exact steady_tableEnsureDirectory path
  | direct => exact steady_directEnsureDirectory path
  | viaSudo executable limit => exact steady_sudoEnsureDirectory executable limit path

theorem asksFor_changeOwner (fs : CgroupFilesystem) (path : Path) (owner : String) :
    AsksFor Host.journal (fs.changeOwner path owner) [path] := by
  refine (asksFor_note (by rfl)).before fun _ => asksFor_nil_of_quiet ?_
  cases fs with
  | table => exact steady_tableChangeOwner path owner
  | direct => exact steady_directChangeOwner path owner
  | viaSudo executable limit => exact steady_sudoChangeOwner executable limit path owner

end CgroupFilesystem

/-- Every path of a list twice. -/
def twice (paths : List Path) : List Path := paths.flatMap fun path => [path, path]

namespace CgroupProvisioner

theorem asksFor_provisionOne (p : CgroupProvisioner) (owner : String) (path : Path) :
    AsksFor Host.journal (p.provisionOne owner path) [path, path] := by
  have hlog : ∀ level message, AsksFor Host.journal (Run.log level .cgroups message) [] :=
    fun level message => asksFor_nil_of_quiet (steady_log _ _ _)
  have hrest : AsksFor Host.journal (do
      p.filesystem.changeOwner path owner
      Run.log .debug .cgroups ("Owner of " ++ path.toString ++ " set to '" ++ owner ++ "'"))
      [path] :=
    (CgroupFilesystem.asksFor_changeOwner p.filesystem path owner).before fun _ => hlog _ _
  refine (CgroupFilesystem.asksFor_ensureDirectory p.filesystem path).bind fun isNew => ?_
  dsimp only
  split <;> exact (hlog _ _).after fun _ => hrest

theorem asksFor_provisionEach (p : CgroupProvisioner) (owner : String) :
    ∀ paths : List Path, AsksFor Host.journal (p.provisionEach owner paths) (twice paths)
  | [] => asksFor_pure _
  | path :: rest =>
      (asksFor_provisionOne p owner path).bind fun _ => asksFor_provisionEach p owner rest

theorem asksFor_provision (p : CgroupProvisioner) (group owner : String) :
    AsksFor Host.journal (p.provision group owner) (twice (groupPaths p.root group)) := by
  refine (asksFor_nil_of_quiet (steady_ownerIsKnown p owner)).after fun known => ?_
  dsimp only
  split
  · exact asksFor_throw _ _
  · cases hspecs : CgroupSpec.forGroup group with
    | error e => exact asksFor_throw _ _
    | ok specs =>
        have hpaths := paths_forGroup hspecs p.root
        exact hpaths ▸ (asksFor_provisionEach p owner _).before fun _ => asksFor_pure _

theorem asksFor_verify (p : CgroupProvisioner) (group owner : String) :
    AsksFor Host.journal (p.verify group owner) [] :=
  asksFor_nil_of_quiet (steady_verify p group owner)

end CgroupProvisioner

/-! ## A whole run -/

namespace Capability

theorem asksFor_provisionGroup (identities : IdentityStore) (filesystem : CgroupFilesystem)
    (config : Config) (request : Request) :
    AsksFor Step.journal (provisionGroup identities filesystem config request)
      (twice (groupPaths config.cgroupRoot (groupOf config request))) := by
  have hreport : ∀ change, AsksFor Step.journal (Step.report change) [] :=
    fun change => Step.asksFor_nil_of_quiet (Step.leads_report change)
  have hresolve := Run.asksFor_nil_of_quiet
    (IdentityStore.steady_resolve identities request.cgroupOwner)
  refine (Step.asksFor_ofRun hresolve).after fun owner => (hreport _).after fun _ =>
    AsksFor.after (Step.asksFor_ofRun (asksFor_nil_of_quiet (steady_log _ _ _))) fun _ =>
      (Step.asksFor_ofRun (CgroupProvisioner.asksFor_provision _ _ _)).before fun paths =>
        (hreport _).after fun _ => AsksFor.ite ?_ (asksFor_pure _)
  exact (Step.asksFor_ofRun (CgroupProvisioner.asksFor_verify _ _ _)).after fun wrong =>
    AsksFor.ite (asksFor_pure _) (asksFor_throw _ _)

end Capability

namespace Orchestrator

variable {o : Orchestrator} {identities : IdentityStore} {filesystem : CgroupFilesystem}
  {config : Config}

theorem asksFor_validate (o : Orchestrator) (request : Request) :
    AsksFor Host.journal (o.validate request) [] :=
  asksFor_nil_of_quiet ((looked_validate o request).mono fun _ _ hlooked => hlooked.grows _)

theorem asksFor_confirm (hquiet : o.AskOnlyAnswers) (request : Request) :
    AsksFor Host.journal (o.confirm request) [] := by
  have hnone : ∀ {es : Journal}, es.changes = [] → es.directories = [] := fun hc =>
    Journal.directories_of_changes (by simp [hc])
  constructor
  · intro h a h' hok
    obtain ⟨h₁, hok', hconsent⟩ | ⟨e, h₁, herror, -⟩ := confirm_cases o request h
    · rw [hok] at hok'
      cases hok'
      obtain ⟨es, hj, hc, -⟩ := hconsent.journal hquiet
      exact ⟨es, hj, hnone hc⟩
    · rw [hok] at herror
      exact nomatch herror
  · intro h e h' herror
    obtain ⟨h₁, hok, -⟩ | ⟨e', h₁, herror', hrefused⟩ := confirm_cases o request h
    · rw [herror] at hok
      exact nomatch hok
    · rw [herror] at herror'
      cases herror'
      obtain ⟨es, hj, hc⟩ := hrefused.journal hquiet
      exact ⟨es, hj, hnone hc ▸ List.prefix_rfl⟩

/-- The steps of a run that has begun ask for the directories of the group. -/
theorem asksFor_apply (hlinux : o.capability = .linux identities filesystem config)
    (request : Request) :
    AsksFor Step.journal (o.apply request)
      (twice (groupPaths config.cgroupRoot (Capability.groupOf config request))) := by
  have htarget : AsksFor Step.journal (o.resolveTarget request) [] :=
    Step.asksFor_nil (C := fun c => c.directory? = none)
      (steady_resolveTarget o request fun _ _ => allows_grows rfl) fun _ hc => hc
  refine htarget.after fun target => ?_
  rw [hlinux]
  exact (Capability.asksFor_provisionGroup identities filesystem config request).before fun _ =>
    Step.asksFor_ofRun (asksFor_nil_of_quiet (steady_log _ _ _))

/-- **The directories of a run.**  Whatever a run for an isolation group ends with, it has asked for
the first of the group's directories, each twice and in their order; and for all of them if it
returns. -/
theorem asksFor_run (hlinux : o.capability = .linux identities filesystem config)
    (hquiet : o.AskOnlyAnswers) (request : Request) :
    AsksFor (fun s : Session => s.host.journal) (o.run request)
      (twice (groupPaths config.cgroupRoot (Capability.groupOf config request))) := by
  have hbefore : AsksFor Host.journal (do o.validate request; o.confirm request : Run Unit) [] :=
    (asksFor_validate o request).after fun _ => asksFor_confirm hquiet request
  have happlied := asksFor_apply hlinux request
  constructor
  · intro s report s' hok
    have hends := ends_run o request s
    rw [hok] at hends
    cases hends with
    | @returned h p hbegins happly =>
        obtain ⟨es, hj, hnone⟩ := hbefore.1 _ _ _ hbegins
        obtain ⟨fs, hj', hall⟩ := happlied.1 _ _ _ happly
        refine ⟨es ++ fs, ?_, by rw [Journal.directories_append, hnone, hall]; rfl⟩
        rw [← List.append_assoc, ← hj]
        exact hj'
  · intro s e s' herror
    have hends := ends_run o request s
    rw [herror] at hends
    cases hends with
    | unbegun hended =>
        obtain ⟨es, hj, hnone⟩ := hbefore.2 _ _ _ hended
        exact ⟨es, hj, hnone.trans List.nil_prefix⟩
    | @failed _ h p hbegins happly =>
        obtain ⟨es, hj, hnone⟩ := hbefore.1 _ _ _ hbegins
        obtain ⟨fs, hj', hfirst⟩ := happlied.2 _ _ _ happly
        refine ⟨es ++ fs, ?_, by rw [Journal.directories_append, hnone]; exact hfirst⟩
        rw [← List.append_assoc, ← hj]
        exact hj'

end Orchestrator

end Provisioning
