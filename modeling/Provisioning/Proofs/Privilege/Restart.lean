/-
# `Provisioning.Proofs.Privilege.Restart` — the report says when a restart is due

The report of a run says that the host must be restarted, and it is kept when
the run fails.  It is written once, right after the grant of the privileges,
so from then on it says so exactly if the grant has added one.

    before the grant    none added, and the report is silent
    grant fails         none added, and the report is silent
    grant gives none    none added, and the report is silent
    grant gives some    some added, and the report says so

What comes later adds no privilege and leaves that part of the report alone.

**Stated here.**  At the end of every run on windows, returned or failed, the
report discloses whether the run has added a privilege (`discloses_run`), and
what fails once one was added is not the operator's refusal
(`undeclined_of_added`).
-/
import Provisioning.Proofs.Consent
import Provisioning.Proofs.Faults
import Provisioning.Proofs.Privilege.Added

namespace Provisioning

open Run

/-! ## What a report may say -/

namespace Progress

/-- No privilege was added since `h`, and the report says of none. -/
structure Fresh (h : Host) (p : Progress) : Prop where
  spares : h.Spares p.host
  silent : p.report.restartRequired = false

/-- The report tells whether a privilege was added since `h`. -/
def Discloses (policy : SecurityPolicy) (h : Host) (p : Progress) : Prop :=
  policy.Discloses h p.host p.report.restartRequired

theorem Fresh.discloses {policy : SecurityPolicy} {h : Host} {p : Progress} (hfresh : p.Fresh h) :
    p.Discloses policy h := by
  rw [Discloses, hfresh.silent]
  exact .spared hfresh.spares

end Progress

/-! ## Steps that disclose -/

namespace Step

variable {α β : Type} {act : Step α} {policy : SecurityPolicy} {h : Host} {p : Progress}

/-- A step that adds no privilege and says nothing of a restart. -/
structure Quiet (act : Step α) : Prop where
  spares : Leads Host.Spares act
  leaves : Leaves Report.restartRequired act

theorem quiet_ofRun {act : Run α} (hspares : Run.Leads Host.Spares act) : Quiet (ofRun act) :=
  ⟨leads_ofRun hspares, leaves_ofRun act⟩

theorem quiet_report {change : Report → Report}
    (hsilent : ∀ r, (change r).restartRequired = r.restartRequired) : Quiet (report change) :=
  ⟨leads_report change, leaves_report hsilent⟩

theorem Quiet.fresh (hquiet : Quiet act) (hfresh : p.Fresh h) : (act.progressAfter p).Fresh h :=
  ⟨trans_of Host.Spares hfresh.spares (hquiet.spares p), (hquiet.leaves p).trans hfresh.silent⟩

theorem Quiet.discloses_after (hquiet : Quiet act) (hdiscloses : p.Discloses policy h) :
    (act.progressAfter p).Discloses policy h := by
  rw [Progress.Discloses, hquiet.leaves p]
  exact hdiscloses.trans_spares (hquiet.spares p)

/-- Begun while no privilege was added, the step ends with a report that tells, or fails before one was
added.  Of a failure this says more than that the report tells. -/
def Marks (policy : SecurityPolicy) (h : Host) (act : Step α) : Prop :=
  ∀ p, p.Fresh h → match act p with
    | .ok _ p' => p'.Discloses policy h
    | .error _ p' => p'.Fresh h

/-- Begun while no privilege was added, the step ends with a report that tells. -/
def Discloses (policy : SecurityPolicy) (h : Host) (act : Step α) : Prop :=
  ∀ p, p.Fresh h → (act.progressAfter p).Discloses policy h

theorem Quiet.discloses (hquiet : Quiet act) : Discloses policy h act :=
  fun _ hfresh => (hquiet.fresh hfresh).discloses

theorem Marks.of_ok (hmarks : Marks policy h act) (hfresh : p.Fresh h) {a : α} {p' : Progress}
    (hact : act p = .ok a p') : p'.Discloses policy h := by
  have hp := hmarks p hfresh
  rw [hact] at hp
  exact hp

theorem Marks.of_error (hmarks : Marks policy h act) (hfresh : p.Fresh h) {e : Fault}
    {p' : Progress} (hact : act p = .error e p') : p'.Fresh h := by
  have hp := hmarks p hfresh
  rw [hact] at hp
  exact hp

/-- A quiet step before one that marks. -/
theorem Quiet.bind_marks (hquiet : Quiet act) {next : α → Step β}
    (hnext : ∀ a, Marks policy h (next a)) : Marks policy h (act >>= next) := by
  intro p hfresh
  have hafter := hquiet.fresh hfresh
  cases hact : act p with
  | ok a p' =>
      rw [progressAfter_of_ok hact] at hafter
      rw [bind_eq_of_ok hact]
      exact hnext a p' hafter
  | error e p' =>
      rw [progressAfter_of_error hact] at hafter
      rw [bind_eq_of_error hact]
      exact hafter

/-- A quiet step before one that discloses. -/
theorem Quiet.bind_discloses (hquiet : Quiet act) {next : α → Step β}
    (hnext : ∀ a, Discloses policy h (next a)) : Discloses policy h (act >>= next) :=
  fun _ hfresh => after_bind (I := Progress.Fresh h) (hquiet.fresh hfresh)
    (fun _ => Progress.Fresh.discloses) hnext

/-- Quiet steps after one that discloses. -/
theorem Discloses.bind_quiet (hact : Discloses policy h act) {next : α → Step β}
    (hnext : ∀ a, Quiet (next a)) : Discloses policy h (act >>= next) :=
  fun p hfresh => after_bind (I := Progress.Discloses policy h) (hact p hfresh)
    (fun _ hdiscloses => hdiscloses) fun a _ => (hnext a).discloses_after

theorem Marks.discloses (hmarks : Marks policy h act) : Discloses policy h act := by
  intro p hfresh
  cases hact : act p with
  | ok a p' =>
      rw [progressAfter_of_ok hact]
      exact hmarks.of_ok hfresh hact
  | error e p' =>
      rw [progressAfter_of_error hact]
      exact (hmarks.of_error hfresh hact).discloses

end Step

/-! ## The grant -/

namespace Capability

variable {identities : IdentityStore} {policy : SecurityPolicy} {access : AccessControl}
  {request : Request} {h : Host}

/-- The report is written right after the grant. -/
theorem marks_grant (identity : Identity) (privileges : PrivilegeSet) :
    Step.Marks policy h (do
      let added ← Step.ofRun (policy.grant identities identity privileges)
      Step.report fun r =>
        { r with privilegesGranted := added.toList, restartRequired := !added.isEmpty }) := by
  intro p hfresh
  have hadds := policy.adds_grant identities identity privileges p.host
  cases hgrant : policy.grant identities identity privileges p.host with
  | error e h' =>
      rw [hgrant] at hadds
      rw [Step.ofRun_bind_of_error hgrant]
      exact ⟨trans_of Host.Spares hfresh.spares hadds, hfresh.silent⟩
  | ok added h' =>
      rw [hgrant] at hadds
      rw [Step.ofRun_bind_of_ok hgrant]
      exact SecurityPolicy.Discloses.of_spares hfresh.spares hadds

theorem marks_provisionRunner (target : Option Identity) :
    Step.Marks policy h (provisionRunner identities policy request target) := by
  have hrunner : Step.Quiet (Step.ofRun (runnerOf identities request target)) :=
    Step.quiet_ofRun (steady_runnerOf identities request target)
  have hnamed (runner : Identity) :
      Step.Quiet (Step.report fun r => { r with runner := some runner }) :=
    Step.quiet_report fun _ => rfl
  exact hrunner.bind_marks fun runner => (hnamed runner).bind_marks fun _ =>
    marks_grant runner request.privileges

theorem spares_directories (identities : IdentityStore) (access : AccessControl)
    (request : Request) (target : Option Identity) :
    Step.Leads Host.Spares
      (if !request.directories.isEmpty then
        provisionDirectories identities access request target
      else pure ()) :=
  Step.Leads.ite (steady_provisionDirectories identities access request target
    fun _ _ _ => allows_spares _) (Step.leads_pure _)

theorem quiet_directories (identities : IdentityStore) (access : AccessControl) (request : Request)
    (target : Option Identity) :
    Step.Quiet
      (if !request.directories.isEmpty then
        provisionDirectories identities access request target
      else pure ()) :=
  ⟨spares_directories identities access request target,
    leaves_directories identities access request target fun _ _ => rfl⟩

theorem discloses_provision (target : Option Identity) :
    Step.Discloses policy h ((windows identities policy access).provision request target) := by
  have hdirectories := quiet_directories identities access request target
  unfold provision
  dsimp only
  split
  · exact (marks_provisionRunner target).discloses.bind_quiet fun _ => hdirectories
  · exact hdirectories.discloses

end Capability

/-! ## What fails once a privilege was added -/

/-- The failure is not the refusal of the operator. -/
def Fault.Undeclined (e : Fault) : Prop := ∀ r, e = .refused r → r.kind ≠ .operationCancelled

instance : ToleratesStarts fun e _ => e.Undeclined where
  of_handled := by
    rintro e he h r rfl
    cases he with
    | refused hkind => exact hkind
  of_unstartable := by
    rintro i h message hunfit hlast r hrefused
    cases hrefused

/-- What is wrong with a host is no refusal at all, if the policy is the service. -/
instance (identities : IdentityStore) (access : AccessControl) :
    (Capability.windows identities .lsa access).Admits fun e _ => e.Undeclined where
  of_slip := by
    intro e h hslip r hrefused
    cases hslip with
    | overran | unstartable | nameless => cases hrefused
    | loginless => exact absurd hrefused (LoginFailure.fault_ne_refused _ r)
    | policy hc hfailure => cases hc

namespace Capability

variable {identities : IdentityStore} {policy : SecurityPolicy} {access : AccessControl}
  {request : Request} {h : Host} {p p' : Progress} {e : Fault}

/-- The directories do not look at the policy, so it may as well be the service, which cannot be set to
fail. -/
theorem orderly_directories (identities : IdentityStore) (access : AccessControl)
    (request : Request) (target : Option Identity) :
    Step.Orderly (fun e _ => e.Undeclined)
      (if !request.directories.isEmpty then
        provisionDirectories identities access request target
      else pure ()) :=
  OrderlyOn.ite (orderly_provisionDirectories (windows identities .lsa access) access request target)
    (orderly_pure _)

theorem staysReal_provisionRunner (target : Option Identity) :
    Step.Leads Host.StaysReal (provisionRunner identities policy request target) :=
  steady_provisionRunner identities policy request target fun _ _ _ =>
    SecurityPolicy.steady_addAccountRights allowsPrivileges_staysReal policy fun _ hreal => hreal

/-- Nobody is asked after the grant. -/
theorem undeclined_provision {target : Option Identity} (hfresh : p.Fresh h)
    (hreal : p.host.programs.Real)
    (herror : (windows identities policy access).provision request target p = .error e p')
    (hadded : policy.Added h p'.host) : e.Undeclined := by
  have hdirectories := orderly_directories identities access request target
  unfold provision at herror
  dsimp only at herror
  split at herror
  · cases hrunner : provisionRunner identities policy request target p with
    | ok u p₁ =>
        rw [bind_eq_of_ok hrunner] at herror
        exact (hdirectories.of_error ((staysReal_provisionRunner target).of_ok hrunner hreal) herror).2
    | error e₁ p₁ =>
        -- a grant that failed has added nothing
        rw [bind_eq_of_error hrunner] at herror
        cases herror
        exact absurd hadded ((marks_provisionRunner target).of_error hfresh hrunner).spares.not_added
  · exact (hdirectories.of_error hreal herror).2

end Capability

/-! ## Runs -/

namespace Orchestrator

variable {o : Orchestrator} {identities : IdentityStore} {policy : SecurityPolicy}
  {access : AccessControl} {request : Request} {h : Host}

theorem spares_resolveTarget (o : Orchestrator) (request : Request) :
    Step.Leads Host.Spares (o.resolveTarget request) :=
  steady_resolveTarget o request fun _ _ => allows_spares _

theorem quiet_resolveTarget (o : Orchestrator) (request : Request) :
    Step.Quiet (o.resolveTarget request) :=
  ⟨spares_resolveTarget o request, o.leaves_resolveTarget request fun _ _ _ => rfl⟩

theorem discloses_apply (hc : o.capability = .windows identities policy access) :
    Step.Discloses policy h (o.apply request) := by
  unfold apply
  refine (quiet_resolveTarget o request).bind_discloses fun target => ?_
  rw [hc]
  exact (Capability.discloses_provision target).bind_quiet fun _ =>
    Step.quiet_ofRun (steady_log _ _ _)

/-- Nothing is added before a run begins, if the one who is asked adds nothing. -/
theorem spares_begin (hask : ∀ ask, o.confirmation = some ask → ∀ q, Leads Host.Spares (ask q))
    (request : Request) :
    Leads Host.Spares (do o.validate request; o.confirm request : Run Unit) := by
  have hasked : ∀ q answer, Leads Host.Spares (note (.asked q answer)) := fun q answer _ =>
    ⟨rfl, [.asked q answer], rfl, by simp⟩
  exact (o.steady_validate request).bind fun _ => o.steady_confirm hask hasked request

/-- **The report says when a restart is due.**  However a run on windows ends, the report that is kept
tells whether the run has added a privilege, if the one who is asked adds none. -/
theorem discloses_run (hc : o.capability = .windows identities policy access)
    (hask : ∀ ask, o.confirmation = some ask → ∀ q, Leads Host.Spares (ask q)) (s : Session)
    (hsilent : s.report.any Report.restartRequired = false) :
    policy.Discloses s.host (o.sessionAfter request s).host
      ((o.sessionAfter request s).report.any Report.restartRequired) := by
  have hbegin := spares_begin hask request
  have happly : ∀ {h'}, o.Begins request s h' →
      ((o.apply request).progressAfter ⟨h', { platform := o.capability.name }⟩).Discloses policy
        s.host := fun hbegins => discloses_apply hc _ ⟨hbegin.of_ok hbegins, rfl⟩
  have hends := o.ends_run request s
  unfold sessionAfter
  cases hrun : o.run request s with
  | ok report s' =>
      rw [hrun] at hends
      cases hends with
      | returned hbegins hdone =>
          have hdiscloses := happly hbegins
          rw [Step.progressAfter_of_ok hdone] at hdiscloses
          exact hdiscloses
  | error e s' =>
      rw [hrun] at hends
      cases hends with
      | unbegun hended =>
          dsimp only
          rw [hsilent]
          exact .spared (hbegin.of_error hended)
      | failed hbegins hfailed =>
          have hdiscloses := happly hbegins
          rw [Step.progressAfter_of_error hfailed] at hdiscloses
          exact hdiscloses

theorem undeclined_apply (hc : o.capability = .windows identities policy access) {p p' : Progress}
    {e : Fault} (hfresh : p.Fresh h) (hreal : p.host.programs.Real)
    (herror : o.apply request p = .error e p') (hadded : policy.Added h p'.host) : e.Undeclined := by
  have hresolving := (quiet_resolveTarget o request).fresh hfresh
  have hstays : Step.Leads Host.StaysReal (o.resolveTarget request) :=
    steady_resolveTarget o request fun _ _ _ hreal => hreal
  unfold apply at herror
  rw [hc] at herror
  cases hresolve : o.resolveTarget request p with
  | error e₁ p₁ =>
      rw [bind_eq_of_error hresolve] at herror
      cases herror
      rw [Step.progressAfter_of_error hresolve] at hresolving
      exact absurd hadded hresolving.spares.not_added
  | ok target p₁ =>
      rw [bind_eq_of_ok hresolve] at herror
      rw [Step.progressAfter_of_ok hresolve] at hresolving
      cases hprovision : (Capability.windows identities policy access).provision request target p₁ with
      | error e₂ p₂ =>
          rw [bind_eq_of_error hprovision] at herror
          cases herror
          exact Capability.undeclined_provision hresolving (hstays.of_ok hresolve hreal) hprovision
            hadded
      | ok u p₂ =>
          rw [bind_eq_of_ok hprovision] at herror
          exact nomatch herror

/-- What fails a run once a privilege was added is not the refusal of the operator, who was asked
before. -/
theorem undeclined_of_added {F : Fault → Host → Prop}
    (hc : o.capability = .windows identities policy access)
    (hask : ∀ ask, o.confirmation = some ask → ∀ q, Leads Host.Spares (ask q))
    (horderly : ∀ ask, o.confirmation = some ask → ask.Orderly F) {s s' : Session} {e : Fault}
    (hreal : s.host.programs.Real) (hrun : o.run request s = .error e s')
    (hspares : h.Spares s.host) (hadded : policy.Added h s'.host) : e.Undeclined := by
  have hbegin := spares_begin hask request
  have hstays : Leads Host.StaysReal (do o.validate request; o.confirm request : Run Unit) :=
    (o.steady_validate request).bind fun _ =>
      o.steady_confirm (fun ask hsome q => (horderly ask hsome q).staysReal)
        (fun _ _ _ hreal => hreal) request
  have hends := o.ends_run request s
  rw [hrun] at hends
  cases hends with
  | unbegun hended =>
      exact absurd hadded (trans_of Host.Spares hspares (hbegin.of_error hended)).not_added
  | @failed _ h₁ p hbegins hfailed =>
      have hfresh : Progress.Fresh h ⟨h₁, { platform := o.capability.name }⟩ :=
        ⟨trans_of Host.Spares hspares (hbegin.of_ok hbegins), rfl⟩
      exact undeclined_apply hc hfresh (hstays.of_ok hbegins hreal) hfailed hadded

end Orchestrator

end Provisioning
