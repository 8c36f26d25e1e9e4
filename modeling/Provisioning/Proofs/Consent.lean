/-
# `Provisioning.Proofs.Consent` — nothing changes before it was agreed to

A run may ask its backends for changes only after the request was validated
and, where someone can be asked, after the one question of the run was
answered with yes.  And what it then asks for is what the plan had announced,
line by line.

    a change                   its line in the plan
    an account created         create local account …
    privileges added           grant … to the runner, for privileges of the request
    an entry set               grant … on the path, for the rights of the request
    a directory made, given    create … owned by …

**Stated here.**  `Course` tells the three ways that a run can go: rejected,
unconfirmed, applied.  Every run takes one of them, whatever its backends, its
configuration and the one who is asked, who may do anything to the host before
answering.  The plan is the one described on the host that validation leaves.
-/
import Provisioning.Proofs.Growth
import Provisioning.Proofs.Host.Lookup
import Provisioning.Proofs.Host.Stores

namespace Provisioning

open Run

namespace Request

/-! ## Without options for accounts, privileges and directories -/

variable {request : Request}

theorem given_createUser_of_windowsOptions (hoptions : request.windowsOptions = []) :
    given request.createUser = none := by
  cases hname : given request.createUser with
  | none => rfl
  | some name => simp [windowsOptions, hname] at hoptions

theorem given_user_of_windowsOptions (hoptions : request.windowsOptions = []) :
    given request.user = none := by
  cases hname : given request.user with
  | none => rfl
  | some name => simp [windowsOptions, hname] at hoptions

theorem directories_of_windowsOptions (hoptions : request.windowsOptions = []) :
    request.directories = [] := by
  cases hpaths : request.directories with
  | nil => rfl
  | cons path rest => simp [windowsOptions, hpaths] at hoptions

end Request

/-! ## The plan and what it announces -/

/-- The lines of the plan of a request on a host; none when it cannot be described. -/
def Capability.planOn (c : Capability) (request : Request) (h : Host) : List String :=
  match c.describe request h with
  | .ok lines _ => lines
  | .error _ _ => []

/-- A change is announced by a line of a plan. -/
def Announced (request : Request) (plan : List String) : Change → Prop
  | .createAccount name => Capability.createLine name ∈ plan
  | .addPrivileges _ privileges =>
    Capability.runnerLine request ∈ plan ∧ ∀ p ∈ privileges, p ∈ request.privileges
  | .setEntry path _ rights => rights = request.rights ∧ Capability.grantLine rights path ∈ plan
  | .ensureDirectory path => ∃ owner, Capability.groupLine owner path ∈ plan
  | .changeOwner path _ => ∃ owner, Capability.groupLine owner path ∈ plan

theorem not_announced_nil (request : Request) (c : Change) : ¬ Announced request [] c := by
  cases c <;> simp [Announced]

namespace Capability

theorem planOn_of_describe {c : Capability} {request : Request} {h h' : Host} {plan : List String}
    (hplan : c.describe request h = .ok plan h') : c.planOn request h = plan := by
  rw [planOn, hplan]

theorem createLine_mem_windowsPlan {request : Request} {name : String}
    (hname : given request.createUser = some name) : createLine name ∈ windowsPlan request := by
  simp [windowsPlan, hname]

theorem runnerLine_mem_windowsPlan {request : Request} (hrunner : request.runnerRequested = true) :
    runnerLine request ∈ windowsPlan request := by
  simp [windowsPlan, hrunner]

theorem grantLine_mem_windowsPlan {request : Request} {path : String}
    (hpath : path ∈ request.directories) :
    grantLine request.rights path ∈ windowsPlan request :=
  List.mem_append_right _ (List.mem_map_of_mem hpath)

/-! ## Plans for isolation groups -/

/-- Validating for an isolation group leaves no option that a run there would act on. -/
theorem of_validate_linux {identities : IdentityStore} {filesystem : CgroupFilesystem}
    {config : Config} {request : Request} {h h' : Host}
    (hvalidate : (linux identities filesystem config).validate request h = .ok () h') :
    request.windowsOptions = [] ∧ request.cgroupOwner ≠ some "" := by
  unfold validate at hvalidate
  dsimp only at hvalidate
  split at hvalidate
  · obtain ⟨_, _, hrefused, -⟩ := bind_apply_eq_ok_iff.1 hvalidate
    exact nomatch hrefused
  · rename_i hoptions
    refine ⟨by simpa using hoptions, ?_⟩
    intro howner
    rw [howner] at hvalidate
    obtain ⟨owner, _, hresolve, -⟩ := bind_apply_eq_ok_iff.1 hvalidate
    exact IdentityStore.resolve_empty_ne_ok identities hresolve

/-- The plan for a group that will belong to an owner. -/
def groupPlan (config : Config) (request : Request) (owner : String) : Run (List String) := do
  let specs ← Run.ofExcept (CgroupSpec.forGroup (groupOf config request))
  return specs.map fun s => groupLine owner (s.path config.cgroupRoot)

theorem groupPlan_apply_of_ok {config : Config} {request : Request} {specs : List CgroupSpec}
    (hspecs : CgroupSpec.forGroup (groupOf config request) = .ok specs) (owner : String)
    (h : Host) :
    groupPlan config request owner h =
      .ok (specs.map fun s => groupLine owner (s.path config.cgroupRoot)) h := by
  rw [groupPlan, hspecs]
  rfl

theorem describe_linux_of_given {request : Request} {owner : String}
    (howner : given request.cgroupOwner = some owner) (identities : IdentityStore)
    (filesystem : CgroupFilesystem) (config : Config) :
    (linux identities filesystem config).describe request = groupPlan config request owner := by
  unfold describe
  dsimp only
  rw [howner]
  rfl

theorem describe_linux_of_none {request : Request} (howner : given request.cgroupOwner = none)
    (identities : IdentityStore) (filesystem : CgroupFilesystem) (config : Config) :
    (linux identities filesystem config).describe request =
      identities.resolve none >>= fun session => groupPlan config request session.name := by
  unfold describe
  dsimp only
  rw [howner]
  rfl

/-- A plan for an isolation group has a line for each directory of the group. -/
theorem of_describe_linux {identities : IdentityStore} {filesystem : CgroupFilesystem}
    {config : Config} {request : Request} {h h' : Host} {plan : List String}
    (hplan : (linux identities filesystem config).describe request h = .ok plan h')
    {specs : List CgroupSpec}
    (hspecs : CgroupSpec.forGroup (groupOf config request) = .ok specs) :
    ∃ owner, plan = specs.map fun s => groupLine owner (s.path config.cgroupRoot) := by
  cases howner : given request.cgroupOwner with
  | some owner =>
      rw [describe_linux_of_given howner, groupPlan_apply_of_ok hspecs] at hplan
      cases hplan
      exact ⟨owner, rfl⟩
  | none =>
      rw [describe_linux_of_none howner] at hplan
      obtain ⟨session, h₁, -, hdo⟩ := bind_apply_eq_ok_iff.1 hplan
      rw [groupPlan_apply_of_ok hspecs] at hdo
      cases hdo
      exact ⟨session.name, rfl⟩

/-- The plan for a group with a name cannot be described only when the operator's own account is
wanted as the owner and cannot be resolved. -/
theorem of_describe_linux_error {identities : IdentityStore} {filesystem : CgroupFilesystem}
    {config : Config} {request : Request} {h h' : Host} {e : Fault}
    (hplan : (linux identities filesystem config).describe request h = .error e h')
    {specs : List CgroupSpec}
    (hspecs : CgroupSpec.forGroup (groupOf config request) = .ok specs) :
    given request.cgroupOwner = none ∧ identities.resolve none h = .error e h' := by
  cases howner : given request.cgroupOwner with
  | some owner =>
      rw [describe_linux_of_given howner, groupPlan_apply_of_ok hspecs] at hplan
      exact nomatch hplan
  | none =>
      rw [describe_linux_of_none howner] at hplan
      cases hresolve : identities.resolve none h with
      | ok session h₁ =>
          rw [bind_apply_of_ok hresolve, groupPlan_apply_of_ok hspecs] at hplan
          exact nomatch hplan
      | error e' h₁ =>
          rw [bind_apply_of_error hresolve] at hplan
          cases hplan
          exact ⟨rfl, rfl⟩

end Capability

/-! ## Consent -/

/-- The host after the operator was asked about a plan and gave an answer. -/
def Host.asked (h : Host) (plan : List String) (answer : Bool) : Host :=
  { h with journal := h.journal ++ [.asked (Orchestrator.question plan) answer] }

namespace Orchestrator

/-- How a run on the validated host `h` comes to be allowed to change it. -/
inductive Consented (o : Orchestrator) (request : Request) (h : Host) : Host → Prop where
  /-- Nobody is to be asked. -/
  | unasked (hnobody : o.config.assumeYes = true ∨ o.confirmation = none) : Consented o request h h
  /-- There is nothing to ask about. -/
  | idle {ask : Confirmation} {h₁ : Host}
      (hask : o.config.assumeYes = false ∧ o.confirmation = some ask)
      (hplan : o.capability.describe request h = .ok [] h₁) : Consented o request h h₁
  /-- The one question was answered with yes. -/
  | affirmed {ask : Confirmation} {plan : List String} {h₁ h₂ : Host}
      (hask : o.config.assumeYes = false ∧ o.confirmation = some ask)
      (hplan : o.capability.describe request h = .ok plan h₁) (hne : plan ≠ [])
      (hyes : ask (question plan) h₁ = .ok true h₂) : Consented o request h (h₂.asked plan true)

/-- How a run on the validated host `h` ends before it was allowed to change it. -/
inductive Unconfirmed (o : Orchestrator) (request : Request) (h : Host) : Fault → Host → Prop where
  /-- The plan could not be described. -/
  | undescribed {ask : Confirmation} {e : Fault} {h₁ : Host}
      (hask : o.config.assumeYes = false ∧ o.confirmation = some ask)
      (hplan : o.capability.describe request h = .error e h₁) : Unconfirmed o request h e h₁
  /-- The one who was asked failed to answer. -/
  | unanswered {ask : Confirmation} {plan : List String} {e : Fault} {h₁ h₂ : Host}
      (hask : o.config.assumeYes = false ∧ o.confirmation = some ask)
      (hplan : o.capability.describe request h = .ok plan h₁) (hne : plan ≠ [])
      (hfailed : ask (question plan) h₁ = .error e h₂) : Unconfirmed o request h e h₂
  /-- The one question was answered with no. -/
  | declined {ask : Confirmation} {plan : List String} {h₁ h₂ : Host}
      (hask : o.config.assumeYes = false ∧ o.confirmation = some ask)
      (hplan : o.capability.describe request h = .ok plan h₁) (hne : plan ≠ [])
      (hno : ask (question plan) h₁ = .ok false h₂) :
      Unconfirmed o request h (.refused (Refusal.usual .operationCancelled)) (h₂.asked plan false)

/-- A confirmation ends with consent or without, and says which. -/
theorem confirm_cases (o : Orchestrator) (request : Request) (h : Host) :
    (∃ h', o.confirm request h = .ok () h' ∧ Consented o request h h') ∨
      ∃ e h', o.confirm request h = .error e h' ∧ Unconfirmed o request h e h' := by
  unfold confirm
  cases hyes : o.config.assumeYes with
  | true => exact .inl ⟨h, rfl, .unasked (.inl hyes)⟩
  | false =>
      rw [if_neg Bool.false_ne_true]
      cases hask : o.confirmation with
      | none => exact .inl ⟨h, rfl, .unasked (.inr hask)⟩
      | some ask =>
          dsimp only
          cases hplan : o.capability.describe request h with
          | error e h₁ =>
              exact .inr ⟨e, h₁, bind_apply_of_error hplan _, .undescribed ⟨hyes, hask⟩ hplan⟩
          | ok plan h₁ =>
              rw [bind_apply_of_ok hplan]
              cases plan with
              | nil => exact .inl ⟨h₁, rfl, .idle ⟨hyes, hask⟩ hplan⟩
              | cons line lines =>
                  rw [if_neg (by simp)]
                  cases hanswer : ask (question (line :: lines)) h₁ with
                  | error e h₂ =>
                      exact .inr ⟨e, h₂, bind_apply_of_error hanswer _,
                        .unanswered ⟨hyes, hask⟩ hplan (by simp) hanswer⟩
                  | ok answer h₂ =>
                      rw [bind_apply_of_ok hanswer]
                      cases answer with
                      | true =>
                          exact .inl ⟨_, rfl, .affirmed ⟨hyes, hask⟩ hplan (by simp) hanswer⟩
                      | false =>
                          exact .inr ⟨_, _, rfl, .declined ⟨hyes, hask⟩ hplan (by simp) hanswer⟩

/-- A confirmation leads wherever looking, asking and writing down do. -/
theorem leads_confirm {R : Host → Host → Prop} [IsPreorder Host R] {o : Orchestrator}
    (hlooked : ∀ h h', h.Looked o.capability.identities h' → R h h')
    (hask : ∀ ask, o.confirmation = some ask → ∀ q, Leads R (ask q))
    (hnote : ∀ e, Leads R (Run.note e)) (request : Request) : Leads R (o.confirm request) := by
  unfold confirm
  refine Leads.ite (leads_pure _) ?_
  cases hconfirmation : o.confirmation with
  | none => exact leads_pure _
  | some ask =>
      refine ((Capability.looked_describe o.capability request).mono hlooked).bind fun plan =>
        Leads.ite (leads_pure _) ?_
      exact (hask ask hconfirmation _).bind fun answer => (hnote _).bind fun _ =>
        Leads.ite (leads_pure _) (leads_throw _)

/-! ## What a confirmed run asks for -/

/-- On windows the plan does not depend on the host, and announces all that is asked for. -/
theorem grows_apply_windows {o : Orchestrator} {identities : IdentityStore}
    {policy : SecurityPolicy} {access : AccessControl} (request : Request)
    (hcapability : o.capability = .windows identities policy access) :
    Step.Leads (Host.Grows (Announced request (Capability.windowsPlan request)))
      (o.apply request) := by
  refine steady_apply o request
    (fun name hname => allows_grows (Capability.createLine_mem_windowsPlan hname))
      fun target => ?_
  rw [hcapability]
  have hdirectories : Step.Leads (Host.Grows (Announced request (Capability.windowsPlan request)))
      (if !request.directories.isEmpty then
        Capability.provisionDirectories identities access request target
      else pure ()) :=
    Step.Leads.ite (Capability.steady_provisionDirectories identities access request target
      fun path hpath _ => allows_grows ⟨rfl, Capability.grantLine_mem_windowsPlan hpath⟩)
        (Step.leads_pure _)
  unfold Capability.provision
  dsimp only
  cases hrunner : request.runnerRequested with
  | true =>
      exact (Capability.steady_provisionRunner identities policy request target
        fun _ _ hps => SecurityPolicy.steady_addAccountRights allowsPrivileges_grows policy
          (allows_grows ⟨Capability.runnerLine_mem_windowsPlan hrunner, hps⟩)).bind fun _ =>
            hdirectories
  | false => exact hdirectories

/-- On linux a described plan names every directory that is made or given away. -/
theorem grows_apply_linux {o : Orchestrator} {identities : IdentityStore}
    {filesystem : CgroupFilesystem} {config : Config} {request : Request} {plan : List String}
    (hcapability : o.capability = .linux identities filesystem config)
    (hoptions : request.windowsOptions = [])
    (hplan : ∀ specs, CgroupSpec.forGroup (Capability.groupOf config request) = .ok specs →
      ∃ owner, ∀ s ∈ specs, Capability.groupLine owner (s.path config.cgroupRoot) ∈ plan) :
    Step.Leads (Host.Grows (Announced request plan)) (o.apply request) := by
  refine steady_apply o request (fun name hname => ?_) fun target => ?_
  · rw [Request.given_createUser_of_windowsOptions hoptions] at hname
    exact nomatch hname
  · rw [hcapability]
    refine Capability.steady_provisionGroup identities filesystem config request
      fun specs hspecs s hs => ?_
    obtain ⟨owner, hlines⟩ := hplan specs hspecs
    exact ⟨allows_grows ⟨owner, hlines s hs⟩, fun _ => allows_grows ⟨owner, hlines s hs⟩⟩

/-- A host that a run was allowed to change without asking, on the plan that could not be described,
is the one on which that was tried. -/
theorem Consented.eq_of_describe_error {o : Orchestrator} {request : Request} {h h' h₁ : Host}
    {e : Fault} (hconsent : Consented o request h h')
    (hplan : o.capability.describe request h = .error e h₁) : h' = h := by
  cases hconsent with
  | unasked hnobody => rfl
  | idle hask hdescribed =>
      rw [hplan] at hdescribed
      exact nomatch hdescribed
  | affirmed hask hdescribed hne hyes =>
      rw [hplan] at hdescribed
      exact nomatch hdescribed

/-- Without options for accounts and directories a run has no target. -/
theorem resolveTarget_of_windowsOptions (o : Orchestrator) {request : Request}
    (hoptions : request.windowsOptions = []) (p : Progress) :
    o.resolveTarget request p = .ok none p := by
  unfold resolveTarget
  rw [Request.given_createUser_of_windowsOptions hoptions,
    Request.given_user_of_windowsOptions hoptions,
    Request.directories_of_windowsOptions hoptions]
  rfl

/-- Without an owner who can be resolved a run for an isolation group asks for no change. -/
theorem apply_linux_of_resolve_error {o : Orchestrator} {identities : IdentityStore}
    {filesystem : CgroupFilesystem} {config : Config} {request : Request} {h h' : Host} {e : Fault}
    (hcapability : o.capability = .linux identities filesystem config)
    (hoptions : request.windowsOptions = []) (howner : request.cgroupOwner = none)
    (hresolve : identities.resolve none h = .error e h') (report : Report) :
    o.apply request ⟨h, report⟩ = .error e ⟨h', report⟩ := by
  have howner' : Step.ofRun (identities.resolve request.cgroupOwner) ⟨h, report⟩ =
      .error e ⟨h', report⟩ := by rw [howner, Step.ofRun, hresolve]
  have hprovision : o.capability.provision request none ⟨h, report⟩ = .error e ⟨h', report⟩ := by
    rw [hcapability]
    exact bind_eq_of_error howner' _
  unfold apply
  rw [bind_eq_of_ok (resolveTarget_of_windowsOptions o hoptions _)]
  exact bind_eq_of_error hprovision _

/-- What a confirmed run asks for is announced by the plan described on the validated host. -/
theorem grows_apply {o : Orchestrator} {request : Request} {h₀ h h' : Host}
    (hvalidate : o.validate request h₀ = .ok () h) (hconsent : Consented o request h h')
    (report : Report) :
    h'.Grows (Announced request (o.capability.planOn request h))
      ((o.apply request).progressAfter ⟨h', report⟩).host := by
  obtain ⟨h₁, hcapability⟩ := capability_validate_of_validate hvalidate
  cases hc : o.capability with
  | windows identities policy access => exact grows_apply_windows request hc ⟨h', report⟩
  | linux identities filesystem config =>
      rw [hc] at hcapability
      obtain ⟨hoptions, hempty⟩ := Capability.of_validate_linux hcapability
      cases hplan : (Capability.linux identities filesystem config).describe request h with
      | ok plan h₂ =>
          rw [Capability.planOn_of_describe hplan]
          refine grows_apply_linux hc hoptions (fun specs hspecs => ?_) ⟨h', report⟩
          obtain ⟨owner, rfl⟩ := Capability.of_describe_linux hplan hspecs
          exact ⟨owner, fun s hs => List.mem_map_of_mem hs⟩
      | error e h₂ =>
          cases hgroup : CgroupSpec.forGroup (Capability.groupOf config request) with
          | error e' =>
              refine grows_apply_linux hc hoptions (fun specs hspecs => ?_) ⟨h', report⟩
              rw [hgroup] at hspecs
              exact nomatch hspecs
          | ok specs =>
              -- the owner cannot be resolved, so the run ends before it asks for anything
              obtain ⟨hgiven, hresolve⟩ := Capability.of_describe_linux_error hplan hgroup
              have howner : request.cgroupOwner = none := by
                cases hname : request.cgroupOwner with
                | none => rfl
                | some owner =>
                    have hne : owner ≠ "" := fun hn => hempty (by rw [hname, hn])
                    rw [hname, given_some_of_ne hne] at hgiven
                    exact nomatch hgiven
              have hsame : h' = h := hconsent.eq_of_describe_error (by rw [hc]; exact hplan)
              subst hsame
              rw [Step.progressAfter_of_error
                (apply_linux_of_resolve_error hc hoptions howner hresolve report)]
              exact ((IdentityStore.looked_resolve identities none).of_error hresolve).grows _

/-! ## The ways a run can go -/

/-- What a session is after a run. -/
def sessionAfter (o : Orchestrator) (request : Request) (s : Session) : Session :=
  match o.run request s with
  | .ok _ s' => s'
  | .error _ s' => s'

/-- How a run goes, by what it ends with. -/
inductive Course (o : Orchestrator) (request : Request) (s : Session) :
    EStateM.Result Fault Session Report → Prop where
  /-- The request is not acceptable, and the host was only looked at. -/
  | rejected {e : Fault} {h : Host} (hvalidate : o.validate request s.host = .error e h)
      (hlooked : s.host.Looked o.capability.identities h) :
      Course o request s (.error e ⟨h, s.report⟩)
  /-- The run was not allowed to change anything. -/
  | unconfirmed {e : Fault} {h h' : Host} (hvalidate : o.validate request s.host = .ok () h)
      (hlooked : s.host.Looked o.capability.identities h)
      (hrefused : Unconfirmed o request h e h') : Course o request s (.error e ⟨h', s.report⟩)
  /-- The run was allowed to change the host, and asked for what was announced until it failed. -/
  | failed {e : Fault} {h h' : Host} {p : Progress}
      (hvalidate : o.validate request s.host = .ok () h)
      (hlooked : s.host.Looked o.capability.identities h) (hconsent : Consented o request h h')
      (hgrows : h'.Grows (Announced request (o.capability.planOn request h)) p.host) :
      Course o request s (.error e ⟨p.host, some p.report⟩)
  /-- The run was allowed to change the host, and it asked for what was announced. -/
  | finished {h h' : Host} {p : Progress} (hvalidate : o.validate request s.host = .ok () h)
      (hlooked : s.host.Looked o.capability.identities h) (hconsent : Consented o request h h')
      (hgrows : h'.Grows (Announced request (o.capability.planOn request h)) p.host) :
      Course o request s (.ok p.report ⟨p.host, some p.report⟩)

theorem course_run (o : Orchestrator) (request : Request) (s : Session) :
    Course o request s (o.run request s) := by
  unfold run
  cases hvalidate : o.validate request s.host with
  | error e h =>
      rw [bind_apply_of_error hvalidate]
      exact .rejected hvalidate ((looked_validate o request).of_error hvalidate)
  | ok u h =>
      have hlooked := (looked_validate o request).of_ok hvalidate
      rw [bind_apply_of_ok hvalidate]
      obtain ⟨h', hconfirm, hconsent⟩ | ⟨e, h', hconfirm, hrefused⟩ := confirm_cases o request h
      · rw [hconfirm]
        have hgrows := grows_apply hvalidate hconsent { platform := o.capability.name }
        dsimp only
        cases happly : o.apply request ⟨h', { platform := o.capability.name }⟩ with
        | ok u p =>
            rw [Step.progressAfter_of_ok happly] at hgrows
            exact .finished hvalidate hlooked hconsent hgrows
        | error e p =>
            rw [Step.progressAfter_of_error happly] at hgrows
            exact .failed hvalidate hlooked hconsent hgrows
      · rw [hconfirm]
        exact .unconfirmed hvalidate hlooked hrefused

/-! ## Runs that begin -/

/-- The request was accepted and confirmed, and the run goes on from the host `h`. -/
def Begins (o : Orchestrator) (request : Request) (s : Session) (h : Host) : Prop :=
  (do o.validate request; o.confirm request : Run Unit) s.host = .ok () h

theorem run_eq_of_begins {o : Orchestrator} {request : Request} {s : Session} {h : Host}
    (hbegins : o.Begins request s h) :
    o.run request s =
      match o.apply request ⟨h, { platform := o.capability.name }⟩ with
      | .error e p => .error e ⟨p.host, some p.report⟩
      | .ok _ p => .ok p.report ⟨p.host, some p.report⟩ := by
  have hended : (do o.validate request; o.confirm request : Run Unit) s.host = .ok () h := hbegins
  cases hp : o.apply request ⟨h, { platform := o.capability.name }⟩ with
  | ok u p => simp only [run, hended, hp]
  | error e p => simp only [run, hended, hp]

/-- A run that begins leaves the host and the report as its steps do. -/
theorem sessionAfter_of_begins {o : Orchestrator} {request : Request} {s : Session} {h : Host}
    (hbegins : o.Begins request s h) :
    o.sessionAfter request s =
      let p := (o.apply request).progressAfter ⟨h, { platform := o.capability.name }⟩
      ⟨p.host, some p.report⟩ := by
  unfold sessionAfter Step.progressAfter
  rw [run_eq_of_begins hbegins]
  cases o.apply request ⟨h, { platform := o.capability.name }⟩ <;> rfl

/-- How a run ends, by what its steps end with. -/
inductive Ends (o : Orchestrator) (request : Request) (s : Session) :
    EStateM.Result Fault Session Report → Prop where
  /-- It was not accepted or not confirmed. -/
  | unbegun {e : Fault} {h : Host}
      (hended : (do o.validate request; o.confirm request : Run Unit) s.host = .error e h) :
      Ends o request s (.error e ⟨h, s.report⟩)
  /-- It began, and one of its steps failed. -/
  | failed {e : Fault} {h : Host} {p : Progress} (hbegins : o.Begins request s h)
      (happly : o.apply request ⟨h, { platform := o.capability.name }⟩ = .error e p) :
      Ends o request s (.error e ⟨p.host, some p.report⟩)
  /-- It began, and all of its steps were done. -/
  | returned {h : Host} {p : Progress} (hbegins : o.Begins request s h)
      (happly : o.apply request ⟨h, { platform := o.capability.name }⟩ = .ok () p) :
      Ends o request s (.ok p.report ⟨p.host, some p.report⟩)

theorem ends_run (o : Orchestrator) (request : Request) (s : Session) :
    Ends o request s (o.run request s) := by
  cases hended : (do o.validate request; o.confirm request : Run Unit) s.host with
  | error e h =>
      have hrun : o.run request s = .error e ⟨h, s.report⟩ := by rw [run, hended]
      exact hrun ▸ .unbegun hended
  | ok u h =>
      rw [run_eq_of_begins hended]
      cases happly : o.apply request ⟨h, { platform := o.capability.name }⟩ with
      | error e p => exact .failed hended happly
      | ok v p => exact .returned hended happly

theorem Unconfirmed.stores_eq {o : Orchestrator} {request : Request} {h h' : Host} {e : Fault}
    (hrefused : Unconfirmed o request h e h') (hlooks : o.capability.identities.LooksOnly h)
    (hkeeps : o.AskKeepsStores) : h'.stores = h.stores := by
  have hdescribe := Capability.looked_describe o.capability request
  cases hrefused with
  | undescribed hask hplan => exact (hdescribe.of_error hplan).stores_eq hlooks
  | @unanswered ask plan e h₁ h₂ hask hplan hne hfailed =>
      have hkept := hkeeps ask hask.2 (question plan) h₁
      rw [hostAfter_of_error hfailed] at hkept
      rw [hkept, (hdescribe.of_ok hplan).stores_eq hlooks]
  | @declined ask plan h₁ h₂ hask hplan hne hno =>
      have hkept := hkeeps ask hask.2 (question plan) h₁
      rw [hostAfter_of_ok hno] at hkept
      exact hkept.trans ((hdescribe.of_ok hplan).stores_eq hlooks)

theorem Consented.stores_eq {o : Orchestrator} {request : Request} {h h' : Host}
    (hconsent : Consented o request h h')
    (hlooks : o.capability.identities.LooksOnly h) (hkeeps : o.AskKeepsStores) :
    h'.stores = h.stores := by
  have hdescribe := Capability.looked_describe o.capability request
  cases hconsent with
  | unasked hnobody => rfl
  | idle hask hplan => exact (hdescribe.of_ok hplan).stores_eq hlooks
  | @affirmed ask plan h₁ h₂ hask hplan hne hyes =>
      have hkept := hkeeps ask hask.2 (question plan) h₁
      rw [hostAfter_of_ok hyes] at hkept
      exact hkept.trans ((hdescribe.of_ok hplan).stores_eq hlooks)

/-- What neither looking nor confirming changes is the same when a run begins, or ends before. -/
theorem view_eq_of_confirm {τ : Type} (view : Host → τ) {o : Orchestrator} {request : Request}
    {s : Session}
    (hlooked : ∀ h, s.host.Looked o.capability.identities h → view h = view s.host)
    (hkeeps : ∀ h, view ((o.confirm request).hostAfter h) = view h) :
    (∀ h, o.Begins request s h → view h = view s.host) ∧
      ∀ e h, (do o.validate request; o.confirm request : Run Unit) s.host = .error e h →
        view h = view s.host := by
  have hvalidated := looked_validate o request
  cases hvalidate : o.validate request s.host with
  | error e h =>
      have hended := bind_apply_of_error hvalidate fun _ => o.confirm request
      refine ⟨fun h' hbegins => ?_, fun e' h' herror => ?_⟩
      · rw [Begins, hended] at hbegins
        exact nomatch hbegins
      · rw [hended] at herror
        cases herror
        exact hlooked h (hvalidated.of_error hvalidate)
  | ok u h =>
      have hconfirmed : view ((o.confirm request).hostAfter h) = view s.host :=
        (hkeeps h).trans (hlooked h (hvalidated.of_ok hvalidate))
      refine ⟨fun h' hbegins => ?_, fun e h' herror => ?_⟩
      · rw [Begins, bind_apply_of_ok hvalidate] at hbegins
        rwa [hostAfter_of_ok hbegins] at hconfirmed
      · rw [bind_apply_of_ok hvalidate] at herror
        rwa [hostAfter_of_error herror] at hconfirmed

/-- Confirming a request leaves the stores as they are, whoever is asked. -/
def ConfirmKeepsStores (o : Orchestrator) (request : Request) : Prop :=
  ∀ h, ((o.confirm request).hostAfter h).stores = h.stores

/-- It does so when looking accounts up leaves the file tree alone, and whoever is asked leaves the
stores alone. -/
theorem confirmKeepsStores_of_looksOnly {o : Orchestrator}
    (hlooks : ∀ h, o.capability.identities.LooksOnly h) (hkeeps : o.AskKeepsStores)
    (request : Request) : o.ConfirmKeepsStores request := by
  intro h
  obtain ⟨h', hok, hconsent⟩ | ⟨e, h', herror, hrefused⟩ := confirm_cases o request h
  · rw [hostAfter_of_ok hok]
    exact hconsent.stores_eq (hlooks h) hkeeps
  · rw [hostAfter_of_error herror]
    exact hrefused.stores_eq (hlooks h) hkeeps

/-- When a run begins the stores are as it found them, and so they are when it ends before. -/
theorem stores_eq_of_confirm {o : Orchestrator} {request : Request} {s : Session}
    (hlooks : o.capability.identities.LooksOnly s.host) (hkeeps : o.ConfirmKeepsStores request) :
    (∀ h, o.Begins request s h → h.stores = s.host.stores) ∧
      ∀ e h, (do o.validate request; o.confirm request : Run Unit) s.host = .error e h →
        h.stores = s.host.stores :=
  view_eq_of_confirm Host.stores (fun _ hlooked => hlooked.stores_eq hlooks) hkeeps

/-! ## What follows for the changes of a run -/

/-- Without anything in the plan nobody is asked, and the host is only looked at. -/
theorem Consented.grows_of_planOn_nil {o : Orchestrator} {request : Request} {h h' : Host}
    (hconsent : Consented o request h h') (hnil : o.capability.planOn request h = [])
    (C : Change → Prop) : h.Grows C h' := by
  cases hconsent with
  | unasked hnobody => exact refl_of _ h
  | idle hask hplan => exact ((Capability.looked_describe o.capability request).of_ok hplan).grows C
  | affirmed hask hplan hne hyes =>
      rw [Capability.planOn_of_describe hplan] at hnil
      exact absurd hnil hne

theorem Unconfirmed.grows_of_planOn_nil {o : Orchestrator} {request : Request} {h h' : Host}
    {e : Fault} (hrefused : Unconfirmed o request h e h')
    (hnil : o.capability.planOn request h = []) (C : Change → Prop) : h.Grows C h' := by
  cases hrefused with
  | undescribed hask hplan =>
      exact ((Capability.looked_describe o.capability request).of_error hplan).grows C
  | unanswered hask hplan hne hfailed =>
      rw [Capability.planOn_of_describe hplan] at hnil
      exact absurd hnil hne
  | declined hask hplan hne hno =>
      rw [Capability.planOn_of_describe hplan] at hnil
      exact absurd hnil hne

theorem grows_run_of_planOn_nil {o : Orchestrator} {request : Request} {s : Session}
    (hnil : o.capability.planOn request ((o.validate request).hostAfter s.host) = []) :
    s.host.Grows (fun _ => False) (o.sessionAfter request s).host := by
  have hcourse := course_run o request s
  unfold sessionAfter
  generalize o.run request s = r at hcourse ⊢
  cases hcourse with
  | rejected hvalidate hlooked => exact hlooked.grows _
  | unconfirmed hvalidate hlooked hrefused =>
      rw [hostAfter_of_ok hvalidate] at hnil
      exact trans_of _ (hlooked.grows _) (hrefused.grows_of_planOn_nil hnil _)
  | failed hvalidate hlooked hconsent hgrows =>
      rw [hostAfter_of_ok hvalidate] at hnil
      rw [hnil] at hgrows
      exact trans_of _ (hlooked.grows _) (trans_of _ (hconsent.grows_of_planOn_nil hnil _)
        (hgrows.mono fun c hc => not_announced_nil request c hc))
  | finished hvalidate hlooked hconsent hgrows =>
      rw [hostAfter_of_ok hvalidate] at hnil
      rw [hnil] at hgrows
      exact trans_of _ (hlooked.grows _) (trans_of _ (hconsent.grows_of_planOn_nil hnil _)
        (hgrows.mono fun c hc => not_announced_nil request c hc))

theorem stores_eq_of_not_confirmed {o : Orchestrator} {request : Request} {s : Session} {e : Fault}
    {h : Host} (hlooks : o.capability.identities.LooksOnly s.host) (hkeeps : o.AskKeepsStores)
    (hended : (do o.validate request; o.confirm request : Run Unit) s.host = .error e h) :
    o.run request s = .error e ⟨h, s.report⟩ ∧ h.stores = s.host.stores := by
  refine ⟨by rw [run, hended], ?_⟩
  cases hvalidate : o.validate request s.host with
  | error e' h₁ =>
      rw [bind_apply_of_error hvalidate] at hended
      cases hended
      exact ((looked_validate o request).of_error hvalidate).stores_eq hlooks
  | ok u h₁ =>
      have hlooked := (looked_validate o request).of_ok hvalidate
      rw [bind_apply_of_ok hvalidate] at hended
      obtain ⟨h', hconfirm, -⟩ | ⟨e', h', hconfirm, hrefused⟩ := confirm_cases o request h₁
      · rw [hconfirm] at hended
        exact nomatch hended
      · rw [hconfirm] at hended
        cases hended
        rw [hrefused.stores_eq (hlooked.looksOnly hlooks) hkeeps, hlooked.stores_eq hlooks]

/-! ## In the order in which it was written down -/

/-- Among the events that a run wrote down, every change comes after all that validation wrote and
after the consent, and a line of the plan announces it. -/
def ConsentedTrace (o : Orchestrator) (request : Request) (s : Session) (own : Journal) : Prop :=
  ∀ (before after : Journal) (c : Change), own = before ++ .requested c :: after →
    ∃ h checked rest, o.validate request s.host = .ok () h ∧
      h.journal = s.host.journal ++ checked ∧ before = checked ++ rest ∧
      Announced request (o.capability.planOn request h) c ∧
      (o.config.assumeYes = false → o.confirmation.isSome = true →
        before.prompts = [(question (o.capability.planOn request h), true)] ∧ after.prompts = [])

theorem consentedTrace_of_changes {o : Orchestrator} {request : Request} {s : Session}
    {own : Journal} (hnone : own.changes = []) : ConsentedTrace o request s own := by
  intro before after c hown
  have hmem : c ∈ own.changes := Journal.mem_changes.2 (by simp [hown])
  rw [hnone] at hmem
  exact nomatch hmem

/-- What was written down until the consent holds no change, and the question if there was one. -/
theorem Consented.journal {o : Orchestrator} {request : Request} {h h' : Host}
    (hconsent : Consented o request h h') (hquiet : o.AskOnlyAnswers) :
    ∃ es : Journal, h'.journal = h.journal ++ es ∧ es.changes = [] ∧
      (o.config.assumeYes = false → o.confirmation.isSome = true →
        o.capability.planOn request h ≠ [] →
          es.prompts = [(question (o.capability.planOn request h), true)]) := by
  have hdescribe := Capability.looked_describe o.capability request
  cases hconsent with
  | unasked hnobody =>
      refine ⟨[], by simp, rfl, fun hyes hsome _ => ?_⟩
      rcases hnobody with hyes' | hnone
      · rw [hyes] at hyes'
        exact nomatch hyes'
      · rw [hnone] at hsome
        exact nomatch hsome
  | idle hask hplan =>
      obtain ⟨es, hj, -, hc⟩ := ((hdescribe.of_ok hplan).grows _).exists_quiet
      exact ⟨es, hj, hc, fun _ _ hne => absurd (Capability.planOn_of_describe hplan) hne⟩
  | @affirmed ask plan h₁ h₂ hask hplan hne hyes =>
      have hanswer := (hquiet ask hask.2 (question plan)).of_ok hyes
      obtain ⟨es, hj, hp, hc⟩ :=
        (trans_of _ ((hdescribe.of_ok hplan).grows _) hanswer).exists_quiet
      refine ⟨es ++ [.asked (question plan) true], by simp [Host.asked, hj], by simp [hc], ?_⟩
      intro _ _ _
      rw [Capability.planOn_of_describe hplan]
      simp [hp]

theorem Unconfirmed.journal {o : Orchestrator} {request : Request} {h h' : Host} {e : Fault}
    (hrefused : Unconfirmed o request h e h') (hquiet : o.AskOnlyAnswers) :
    ∃ own, h'.journal = h.journal ++ own ∧ own.changes = [] := by
  have hdescribe := Capability.looked_describe o.capability request
  cases hrefused with
  | undescribed hask hplan =>
      obtain ⟨es, hj, -, hc⟩ := ((hdescribe.of_error hplan).grows _).exists_quiet
      exact ⟨es, hj, hc⟩
  | @unanswered ask plan e h₁ h₂ hask hplan hne hfailed =>
      have hanswer := (hquiet ask hask.2 (question plan)).of_error hfailed
      obtain ⟨es, hj, -, hc⟩ :=
        (trans_of _ ((hdescribe.of_ok hplan).grows _) hanswer).exists_quiet
      exact ⟨es, hj, hc⟩
  | @declined ask plan h₁ h₂ hask hplan hne hno =>
      have hanswer := (hquiet ask hask.2 (question plan)).of_ok hno
      obtain ⟨es, hj, -, hc⟩ :=
        (trans_of _ ((hdescribe.of_ok hplan).grows _) hanswer).exists_quiet
      exact ⟨es ++ [.asked (question plan) false], by simp [Host.asked, hj], by simp [hc]⟩

/-- An applied run writes down first what validation wrote, then the consent, then its changes. -/
theorem consentedTrace_of_applied {o : Orchestrator} {request : Request} {s : Session}
    {h h' h'' : Host} (hquiet : o.AskOnlyAnswers) (hvalidate : o.validate request s.host = .ok () h)
    (hlooked : s.host.Looked o.capability.identities h) (hconsent : Consented o request h h')
    (hgrows : h'.Grows (Announced request (o.capability.planOn request h)) h'') :
    ∃ own, h''.journal = s.host.journal ++ own ∧ ConsentedTrace o request s own := by
  obtain ⟨checked, hj, hp, hc⟩ := (hlooked.grows _).exists_quiet
  obtain ⟨asked, hj', hc', hprompts⟩ := hconsent.journal hquiet
  obtain ⟨made, hj'', hp'', hannounced⟩ := hgrows
  refine ⟨(checked ++ asked) ++ made, by simp [hj'', hj', hj], fun before after c hown => ?_⟩
  -- the change is none of the events before those of the applied steps
  have hnot : Event.requested c ∉ checked ++ asked := fun hmem => by
    have hmem' := Journal.mem_changes.2 hmem
    rw [Journal.changes_append, hc, hc'] at hmem'
    exact nomatch hmem'
  obtain ⟨rest, rfl, rfl⟩ : ∃ rest, before = (checked ++ asked) ++ rest ∧
      made = rest ++ .requested c :: after := by
    rcases List.append_eq_append_iff.1 hown with ⟨rest, hbefore, hmade⟩ | ⟨rest, hfirst, hafter⟩
    · exact ⟨rest, hbefore, hmade⟩
    · cases rest with
      | nil => exact ⟨[], by simpa using hfirst.symm, by simpa using hafter.symm⟩
      | cons e rest =>
          cases hafter
          exact absurd (by simp [hfirst]) hnot
  have hc'' : Announced request (o.capability.planOn request h) c :=
    hannounced c (Journal.mem_changes.2 (by simp))
  refine ⟨h, checked, asked ++ rest, hvalidate, hj, by simp, hc'', fun hyes hsome => ?_⟩
  have hne : o.capability.planOn request h ≠ [] := fun hnil => by
    rw [hnil] at hc''
    exact not_announced_nil request c hc''
  have hrest : Journal.prompts rest = [] ∧ Journal.prompts after = [] := by
    have hcons : Journal.prompts (.requested c :: after) = Journal.prompts after := rfl
    rw [Journal.prompts_append, hcons] at hp''
    exact List.append_eq_nil_iff.1 hp''
  refine ⟨?_, hrest.2⟩
  rw [Journal.prompts_append, Journal.prompts_append, hp, hprompts hyes hsome hne, hrest.1]
  rfl

theorem consentedTrace_run (o : Orchestrator) (request : Request) (s : Session)
    (hquiet : o.AskOnlyAnswers) :
    ∃ own, (o.sessionAfter request s).host.journal = s.host.journal ++ own ∧
      ConsentedTrace o request s own := by
  have hcourse := course_run o request s
  unfold sessionAfter
  generalize o.run request s = r at hcourse ⊢
  cases hcourse with
  | rejected hvalidate hlooked =>
      obtain ⟨es, hj, -, hc⟩ := (hlooked.grows _).exists_quiet
      exact ⟨es, hj, consentedTrace_of_changes hc⟩
  | unconfirmed hvalidate hlooked hrefused =>
      obtain ⟨es, hj, -, hc⟩ := (hlooked.grows _).exists_quiet
      obtain ⟨fs, hj', hc'⟩ := hrefused.journal hquiet
      exact ⟨es ++ fs, by simp [hj', hj], consentedTrace_of_changes (by simp [hc, hc'])⟩
  | failed hvalidate hlooked hconsent hgrows =>
      exact consentedTrace_of_applied hquiet hvalidate hlooked hconsent hgrows
  | finished hvalidate hlooked hconsent hgrows =>
      exact consentedTrace_of_applied hquiet hvalidate hlooked hconsent hgrows

/-- **Consent before change.**  Every run is rejected, not confirmed, or applied after consent, and
then asks for announced changes only.  With an empty plan it asks for none; rejected or not
confirmed it leaves the stores as they were, as far as the one who was asked did; and in the order
in which it wrote things down, every change comes after validation and after the one question with
its yes. -/
theorem run_changes_only_with_consent (o : Orchestrator) (request : Request) (s : Session) :
    Course o request s (o.run request s) ∧
    (o.capability.planOn request ((o.validate request).hostAfter s.host) = [] →
      s.host.Grows (fun _ => False) (o.sessionAfter request s).host) ∧
    (o.capability.identities.LooksOnly s.host → o.AskKeepsStores → ∀ e h,
      (do o.validate request; o.confirm request : Run Unit) s.host = .error e h →
        o.run request s = .error e ⟨h, s.report⟩ ∧ h.stores = s.host.stores) ∧
    (o.AskOnlyAnswers → ∃ own,
      (o.sessionAfter request s).host.journal = s.host.journal ++ own ∧
        ConsentedTrace o request s own) :=
  ⟨course_run o request s, grows_run_of_planOn_nil,
    fun hlooks hkeeps _ _ hended => stores_eq_of_not_confirmed hlooks hkeeps hended,
    consentedTrace_run o request s⟩

/-- A declined creation leaves the stores as they were, and a confirmed one is written down after
its question. -/
theorem run_changes_only_with_consent_carol :
    let request : Request := { createUser := some "carol", password := some ⟨"pw"⟩ }
    let asking (answer : Bool) : Orchestrator :=
      { capability := .windows .table .table .table, confirmation := some (fixedAnswer answer []) }
    ((asking false).sessionAfter request ⟨{}, none⟩).host.stores = ({} : Host).stores ∧
      ∃ own, ((asking true).sessionAfter request ⟨{}, none⟩).host.journal = own ∧
        ConsentedTrace (asking true) request ⟨{}, none⟩ own := by
  intro request asking
  have hkeeps : (asking false).AskKeepsStores := by
    rintro ask ⟨⟩ q h
    exact stores_fixedAnswer false q h
  have hquiet : (asking true).AskOnlyAnswers := by
    rintro ask ⟨⟩ q
    exact grows_fixedAnswer true [] q
  have hdeclined := (run_changes_only_with_consent (asking false) request ⟨{}, none⟩).2.2.1
    trivial hkeeps _ _ rfl
  refine ⟨?_, (run_changes_only_with_consent (asking true) request ⟨{}, none⟩).2.2.2 hquiet⟩
  rw [sessionAfter, hdeclined.1]
  exact hdeclined.2

end Orchestrator

end Provisioning
