/-
# `Provisioning.Proofs.Windows.Apply` — the stages after the confirmation

An accepted run resolves its target, grants the runner its privileges and
offers the directories to the target.  Each stage either does all that it is to
do, or stops the run for one of the reasons there are (`Stops`); `apply_outcome`
puts them together.
-/
import Provisioning.Proofs.Windows.Stages

namespace Provisioning

namespace Orchestrator

open Run

variable {o : Orchestrator} {request : Request} {S : Stores}

/-! ## The target -/

/-- The target is resolved, created if the request says so, and the report tells. -/
theorem gives_resolveTarget (htables : o.OnTables) (accepted : Accepted request S)
    (platform : String) (hne : request.targetName S.accounts.sessionUser ≠ some "") :
    ∃ target : Option Identity,
      target.map Identity.name = request.targetName S.accounts.sessionUser ∧
      (∀ t, target = some t → t.present = true) ∧
      Gives Progress.seen (o.resolveTarget request) (S, { platform }) target
        (S.withTarget request, .ofTarget platform request S target) := by
  have hstore : o.capability.identities = .table := by rw [htables]; rfl
  unfold resolveTarget Request.targetName Report.ofTarget Request.creates Stores.withTarget
  unfold Request.targetName at hne
  rw [hstore]
  cases hcreate : given request.createUser with
  | some name =>
      obtain ⟨-, credential, hpassword, hgiven⟩ := of_checkOptions accepted.options hcreate
      obtain ⟨hname, hnamed⟩ := given_eq_some_iff.1 hcreate
      obtain ⟨i, hi, hpresent, hsource, hresolve⟩ :=
        IdentityStore.gives_resolveOrCreate (S := S) hnamed hgiven
      rw [AccountTable.ensured_of_create hcreate hpassword, hname, hpassword, Option.any_some,
        ← hsource]
      exact ⟨some i, congrArg some hi, fun t ht => Option.some.inj ht ▸ hpresent,
        Gives.ite_pos rfl ((Step.gives_ofRun hresolve).bind
          ((Step.gives_report _).bind (gives_pure _ _)))⟩
  | none =>
      rw [hcreate] at hne
      rw [AccountTable.ensured_of_none hcreate]
      cases huser : given request.user with
      | some name =>
          obtain ⟨hname, hnamed⟩ := given_eq_some_iff.1 huser
          obtain ⟨i, hi, hpresent, hresolve⟩ := IdentityStore.gives_resolve (S := S) (some name)
            hnamed fun n hn => Option.some.inj hn ▸ accepted.user name huser
          rw [hname]
          exact ⟨some i, congrArg some hi, fun t ht => Option.some.inj ht ▸ hpresent,
            Gives.ite_neg (by simp) (Gives.ite_pos rfl ((Step.gives_ofRun hresolve).bind
              ((Step.gives_report _).bind (gives_pure _ _))))⟩
      | none =>
          rw [huser] at hne
          cases hsession : !request.directories.isEmpty && request.useSessionIdentity with
          | true =>
              rw [hsession] at hne
              obtain ⟨i, hi, hpresent, hresolve⟩ := IdentityStore.gives_resolve (S := S) none
                (fun h => hne (congrArg some h)) fun n hn => nomatch hn
              exact ⟨some i, congrArg some hi, fun t ht => Option.some.inj ht ▸ hpresent,
                Gives.ite_neg (by simp) (Gives.ite_neg (by simp) (Gives.ite_pos rfl
                  ((Step.gives_ofRun hresolve).bind
                    ((Step.gives_report _).bind (gives_pure _ _)))))⟩
          | false =>
              exact ⟨none, rfl, fun t ht => (nomatch ht),
                Gives.ite_neg (by simp) (Gives.ite_neg (by simp) (Gives.ite_neg
                  Bool.false_ne_true (gives_pure _ _)))⟩

/-- The operator's own account cannot be the target without a name. -/
theorem fails_resolveTarget (htables : o.OnTables) {R : Report}
    (hempty : request.targetName S.accounts.sessionUser = some "") :
    Fails Progress.seen (o.resolveTarget request) (S, R)
      (· = .invalid "Identity" [.inField "name" .stringEmpty]) (S, R) := by
  have hstore : o.capability.identities = .table := by rw [htables]; rfl
  unfold Request.targetName at hempty
  unfold resolveTarget
  rw [hstore]
  cases hcreate : given request.createUser with
  | some name =>
      rw [hcreate] at hempty
      exact absurd (Option.some.inj hempty) (given_eq_some_iff.1 hcreate).2
  | none =>
      rw [hcreate] at hempty
      cases huser : given request.user with
      | some name =>
          rw [huser] at hempty
          exact absurd (Option.some.inj hempty) (given_eq_some_iff.1 huser).2
      | none =>
          rw [huser] at hempty
          cases hsession : !request.directories.isEmpty && request.useSessionIdentity with
          | false =>
              rw [hsession] at hempty
              exact nomatch hempty
          | true =>
              rw [hsession] at hempty
              have hresolve : Fails Host.stores (IdentityStore.resolve .table none) S
                  (· = .invalid "Identity" [.inField "name" .stringEmpty]) S :=
                IdentityStore.fails_resolve_of_empty (Option.some.inj hempty)
                  fun n hn => nomatch hn
              exact Fails.ite_neg (by simp) (Fails.ite_neg (by simp) (Fails.ite_pos rfl
                ((Step.fails_ofRun hresolve).bind _)))

/-! ## The runner -/

/-- An account that a request gives as the runner is there once the target is, or is the target. -/
theorem has_runner (accepted : Accepted request S) {name : String}
    (hname : given request.runner = some name)
    (hother : ∀ target, request.targetName S.accounts.sessionUser = some target →
      sameAccount (some name) (some target) = false) :
    (S.accounts.ensured request).has name = true := by
  refine AccountTable.has_ensured_of_has (accepted.runner name hname ?_) request
  have hne : name ≠ "" := (given_eq_some_iff.1 hname).2
  cases hcreate : request.createUser with
  | none => rfl
  | some new =>
      by_cases hnew : new = ""
      · subst hnew
        have hfold : Text.fold name ≠ Text.fold "" := fun h =>
          hne (Text.fold_eq_empty_iff.1 (h.trans (Text.fold_eq_empty_iff.2 rfl)))
        simpa [sameAccount] using hfold
      · refine hother new ?_
        rw [Request.targetName, hcreate, given_some_of_ne hnew]

/-- The identity that the privileges are granted to can be resolved if it has a name. -/
theorem gives_runnerOf (accepted : Accepted request S) {target : Option Identity}
    (htarget : target.map Identity.name = request.targetName S.accounts.sessionUser)
    (hpresent : ∀ t, target = some t → t.present = true)
    (hne : request.runnerName S.accounts.sessionUser ≠ "") :
    ∃ i : Identity, i.name = request.runnerName S.accounts.sessionUser ∧ i.present = true ∧
      Gives Host.stores (Capability.runnerOf .table request target) (S.withTarget request) i
        (S.withTarget request) := by
  have hsession : (S.withTarget request).accounts.sessionUser = S.accounts.sessionUser :=
    AccountTable.sessionUser_ensured _ _
  unfold Request.runnerName at hne ⊢
  unfold Capability.runnerOf
  rw [← htarget] at hne ⊢
  cases hrunner : given request.runner with
  | none =>
      rw [hrunner] at hne
      have hgiven : request.runner = none := by
        cases hname : request.runner with
        | none => rfl
        | some name =>
            rw [hname] at hrunner hne
            by_cases hempty : name = ""
            · exact absurd hempty hne
            · rw [given_some_of_ne hempty] at hrunner
              exact nomatch hrunner
      rw [hgiven] at hne ⊢
      obtain ⟨i, hi, hthere, hresolve⟩ := IdentityStore.gives_resolve (S := S.withTarget request)
        none (by rw [IdentityStore.resolvedName, hsession]; exact hne) fun n hn => nomatch hn
      rw [IdentityStore.resolvedName, hsession] at hi
      exact ⟨i, hi, hthere, hresolve⟩
  | some name =>
      obtain ⟨hgiven, hnamed⟩ := given_eq_some_iff.1 hrunner
      have hresolved : (∀ t, request.targetName S.accounts.sessionUser = some t →
            sameAccount (some name) (some t) = false) →
          ∃ i : Identity, i.name = name ∧ i.present = true ∧
            Gives Host.stores (IdentityStore.resolve .table request.runner) (S.withTarget request)
              i (S.withTarget request) := by
        intro hother
        rw [hgiven]
        exact IdentityStore.gives_resolve (S := S.withTarget request) (some name) hnamed
          fun n hn => Option.some.inj hn ▸ has_runner accepted hrunner hother
      cases target with
      | none =>
          obtain ⟨i, hi, hthere, hresolve⟩ := hresolved fun t ht => by
            rw [ht] at htarget
            exact nomatch htarget
          refine ⟨i, ?_, hthere, hresolve⟩
          rw [hi, hgiven]
          rfl
      | some t =>
          dsimp only [Option.map_some]
          cases hsame : sameAccount (some name) (some t.name) with
          | true => exact ⟨t, rfl, hpresent t rfl, Gives.ite_pos rfl (gives_pure _ _)⟩
          | false =>
              obtain ⟨i, hi, hthere, hresolve⟩ := hresolved fun t' ht' => by
                rw [ht'] at htarget
                exact Option.some.inj htarget ▸ hsame
              exact ⟨i, hi, hthere, Gives.ite_neg Bool.false_ne_true hresolve⟩

/-- A runner without a name is one that the request gives as empty, or the operator. -/
theorem given_runner_of_runnerName {target : Option Identity} {sessionUser : String}
    (htarget : target.map Identity.name = request.targetName sessionUser)
    (hempty : request.runnerName sessionUser = "") :
    given request.runner = none ∧ request.runner.getD sessionUser = "" := by
  unfold Request.runnerName at hempty
  rw [← htarget] at hempty
  cases hrunner : given request.runner with
  | none =>
      rw [hrunner] at hempty
      exact ⟨rfl, hempty⟩
  | some name =>
      obtain ⟨hgiven, hnamed⟩ := given_eq_some_iff.1 hrunner
      rw [hrunner] at hempty
      cases target with
      | none =>
          rw [hgiven] at hempty
          exact absurd hempty hnamed
      | some t =>
          dsimp only [Option.map_some] at hempty
          split at hempty
          · exact absurd hempty t.named
          · exact absurd hempty hnamed

/-- Without a name the runner cannot be resolved: what is said depends on whether an account has the
empty name. -/
theorem fails_runnerOf {target : Option Identity}
    (htarget : target.map Identity.name = request.targetName S.accounts.sessionUser)
    (hempty : request.runnerName S.accounts.sessionUser = "") :
    Fails Host.stores (Capability.runnerOf .table request target) (S.withTarget request)
      (fun e => if request.runner = some "" ∧ S.accounts.has "" = false
        then e = IdentityStore.unknownAccount ""
        else e = .invalid "Identity" [.inField "name" .stringEmpty])
      (S.withTarget request) := by
  obtain ⟨hrunner, hname⟩ := given_runner_of_runnerName htarget hempty
  have hsession : (S.withTarget request).accounts.sessionUser = S.accounts.sessionUser :=
    AccountTable.sessionUser_ensured _ _
  have hhas : (S.withTarget request).accounts.has "" = S.accounts.has "" :=
    AccountTable.has_empty_ensured _ _
  unfold Capability.runnerOf
  rw [hrunner]
  dsimp only
  by_cases hnew : request.runner = some "" ∧ S.accounts.has "" = false
  · rw [hnew.1]
    refine (IdentityStore.fails_resolve_of_new (by rw [hhas, hnew.2])).mono fun e he => ?_
    rw [if_pos ⟨rfl, hnew.2⟩]
    exact he
  · refine (IdentityStore.fails_resolve_of_empty ?_ ?_).mono fun e he => ?_
    · rw [IdentityStore.resolvedName, hsession, hname]
    · intro n hn
      have hn' : n = "" := by rw [hn] at hname; exact hname
      subst hn'
      rw [hhas]
      cases hempty' : S.accounts.has "" with
      | true => rfl
      | false => exact absurd ⟨hn, hempty'⟩ hnew
    · rw [if_neg hnew]
      exact he

/-! ## Every stage is done, or stops the run -/

/-- The step fails, and why is a reason for the run to stop in a part of it. -/
def Stops {α : Type} (act : Step α) (request : Request) (S : Stores) (phase : Phase) (S₀ : Stores)
    (R : Report) : Prop :=
  ∃ (P : Fault → Prop) (S' : Stores) (R' : Report),
    Fails Progress.seen act (S₀, R) P (S', R') ∧ ∀ e, P e → Stopped request S phase e S'

/-- The runner is granted what it lacks, and the report tells; or the run stops. -/
theorem provisionRunner_outcome (accepted : Accepted request S) {target : Option Identity}
    (R : Report) (hrequested : request.runnerRequested = true)
    (htarget : target.map Identity.name = request.targetName S.accounts.sessionUser)
    (hpresent : ∀ t, target = some t → t.present = true) :
    (RunnerReady request S ∧ ∃ i : Identity,
      i.name = request.runnerName S.accounts.sessionUser ∧
      Gives Progress.seen (Capability.provisionRunner .table .table request target)
        (S.withTarget request, R) () (S.withRunner request, R.withRunner request S i)) ∨
    Stops (Capability.provisionRunner .table .table request target) request S .runner
      (S.withTarget request) R := by
  by_cases hempty : request.runnerName S.accounts.sessionUser = ""
  · refine .inr ⟨_, _, _, (Step.fails_ofRun (fails_runnerOf htarget hempty)).bind _, fun e he => ?_⟩
    split at he
    · rename_i hunknown
      subst he
      exact .runnerUnknown hrequested hunknown.1 hunknown.2
    · rename_i hknown
      subst he
      exact .runnerUnnamed hrequested hempty hknown
  · obtain ⟨i, hi, hthere, hresolve⟩ := gives_runnerOf accepted htarget hpresent hempty
    cases hhas : (S.accounts.ensured request).has (request.runnerName S.accounts.sessionUser) with
    | false =>
        have hmissing : Fails Host.stores
            (SecurityPolicy.grant .table .table i request.privileges) (S.withTarget request)
            (· = IdentityStore.unknownAccount i.name) (S.withTarget request) :=
          (IdentityStore.fails_requireExisting (hi ▸ hhas)).bind _
        refine .inr ⟨_, _, _, (Step.gives_ofRun hresolve).bind_fails
          ((Step.gives_report _).bind_fails ((Step.fails_ofRun hmissing).bind _)), ?_⟩
        rintro e rfl
        exact .runnerMissing hrequested hi.symm i.named (hi ▸ hhas)
    | true =>
        have hhas' : (S.withTarget request).accounts.has i.name = true := hi ▸ hhas
        by_cases hallowed : (runnerLacks request S).isEmpty = true ∨ S.rights.failure = none
        · have hgrant := SecurityPolicy.gives_grant request.privileges hthere hhas' (hi ▸ hallowed)
          rw [hi] at hgrant
          have hstores : S.withRunner request =
              { S.withTarget request with
                rights := (S.withTarget request).rights.withPrivileges
                  (request.runnerName S.accounts.sessionUser) request.privileges } := by
            rw [Stores.withRunner, RightsTable.granted, if_pos hrequested]
            rfl
          rw [hstores]
          exact .inl ⟨⟨hempty, hhas, hallowed⟩, i, hi, (Step.gives_ofRun hresolve).bind
            ((Step.gives_report _).bind ((Step.gives_ofRun hgrant).bind (Step.gives_report _)))⟩
        · obtain ⟨hlacking, hfailure⟩ := not_or.1 hallowed
          obtain ⟨f, hf⟩ := Option.ne_none_iff_exists'.1 hfailure
          have hlacking' : (runnerLacks request S).isEmpty = false := by simpa using hlacking
          have hrefused := SecurityPolicy.fails_grant request.privileges hthere hhas'
            (hi ▸ hlacking') hf
          refine .inr ⟨_, _, _, (Step.gives_ofRun hresolve).bind_fails
            ((Step.gives_report _).bind_fails ((Step.fails_ofRun hrefused).bind _)), ?_⟩
          rintro e rfl
          rw [hi]
          exact .grantRefused hrequested hempty hlacking' hf

theorem provisionDirectories_outcome (accepted : Accepted request S)
    (hrunner : request.runnerRequested = true → RunnerReady request S) {target : Identity}
    (R : Report) (hpaths : request.directories ≠ [])
    (htarget : request.targetName S.accounts.sessionUser = some target.name)
    (hpresent : target.present = true) :
    (TargetReady request S target.name ∧
      Gives Progress.seen (Capability.provisionDirectories .table .table request (some target))
        (S.withRunner request, R) ()
        (S.complete request, { R with directoriesGranted := request.directories })) ∨
    Stops (Capability.provisionDirectories .table .table request (some target)) request S
      .directories (S.withRunner request) R := by
  have hstores : S.complete request =
      { S.withRunner request with
        access := (S.withRunner request).access.offerAll target.name request.rights
          request.directories } := by
    rw [Stores.complete, AccessTable.offered, htarget]
    rfl
  cases hhas : (S.accounts.ensured request).has target.name with
  | false =>
      have hnew : (S.withRunner request).accounts.has target.name = false := hhas
      have hmissing : Fails Host.stores
          (AccessControl.grantAll .table .table target request.directories request.rights)
          (S.withRunner request) (· = IdentityStore.unknownAccount target.name)
          (S.withRunner request) := (IdentityStore.fails_requireExisting hnew).bind _
      refine .inr ⟨_, _, _, (Step.gives_ofRun (gives_log _ _ _)).bind_fails
        ((Step.fails_ofRun hmissing).bind _), ?_⟩
      rintro e rfl
      exact .targetMissing hrunner hpaths htarget hhas
  | true =>
      have hhas' : (S.withRunner request).accounts.has target.name = true := hhas
      by_cases hopen : ∀ path ∈ request.directories, S.access.Open target.name request.rights path
      · have hgrant := AccessControl.gives_grantAll request.rights request.directories
          hpresent hhas' accepted.paths hopen
        have hreport : Gives Progress.seen
            (Capability.provisionDirectories .table .table request (some target))
            (S.withRunner request, R) () (S.complete request, _) :=
          (Step.gives_ofRun (gives_log _ _ _)).bind
            ((Step.gives_ofRun (hstores ▸ hgrant)).bind (Step.gives_report _))
        have hpathsGranted : (request.directories.map fun path =>
            ({ identity := target, path, rights := request.rights } : DirectoryGrant)).map
              DirectoryGrant.path = request.directories := by simp [Function.comp_def]
        rw [hpathsGranted] at hreport
        exact .inl ⟨⟨hhas, hopen⟩, hreport⟩
      · have hrefused := AccessControl.fails_grantAll request.rights request.directories
          hpresent hhas' accepted.paths hopen
        rw [← hstores] at hrefused
        refine .inr ⟨_, _, _, (Step.gives_ofRun (gives_log _ _ _)).bind_fails
          ((Step.fails_ofRun hrefused).bind _), ?_⟩
        rintro e rfl
        exact .pathClosed hrunner hpaths htarget hopen

/-- What the platform does for the runner, if the request wants one. -/
def runnerStep (request : Request) (target : Option Identity) : Step Unit :=
  if request.runnerRequested then Capability.provisionRunner .table .table request target
  else pure ()

/-- What the platform does for the directories, if the request has any. -/
def directoriesStep (request : Request) (target : Option Identity) : Step Unit :=
  if !request.directories.isEmpty then
    Capability.provisionDirectories .table .table request target
  else pure ()

theorem provision_eq (request : Request) (target : Option Identity) :
    (Capability.windows .table .table .table).provision request target =
      (do runnerStep request target; directoriesStep request target) := by
  unfold Capability.provision runnerStep directoriesStep
  dsimp only
  split <;> rfl

/-- The parts of a run after the confirmation, one after the other. -/
theorem apply_eq (htables : o.OnTables) : o.apply request = (do
    let target ← o.resolveTarget request
    runnerStep request target
    directoriesStep request target
    Step.ofRun
      (Run.log .info .orchestrator ("Provisioning finished on " ++ o.capability.name))) := by
  have hprovision : o.capability.provision request =
      fun target => (do runnerStep request target; directoriesStep request target) := by
    rw [htables]
    exact funext (provision_eq request)
  unfold apply
  rw [hprovision]
  simp only [bind_assoc]

/-- The runner is granted what it lacks if there is to be one, and the report tells of it; or the
run stops. -/
theorem runner_outcome (accepted : Accepted request S) (platform : String)
    {target : Option Identity}
    (htarget : target.map Identity.name = request.targetName S.accounts.sessionUser)
    (hpresent : ∀ t, target = some t → t.present = true) :
    ((request.runnerRequested = true → RunnerReady request S) ∧ ∃ R : Report,
      R.directoriesGranted = [] ∧
      ({ R with directoriesGranted := request.directories } : Report).Tells request S ∧
      Gives Progress.seen (runnerStep request target)
        (S.withTarget request, .ofTarget platform request S target) () (S.withRunner request, R)) ∨
    Stops (runnerStep request target) request S .runner (S.withTarget request)
      (.ofTarget platform request S target) := by
  unfold runnerStep
  cases hrequested : request.runnerRequested with
  | false =>
      have hstores : S.withRunner request = S.withTarget request := by
        rw [Stores.withRunner, RightsTable.granted, hrequested]
        rfl
      rw [hstores]
      refine .inl ⟨fun h => (nomatch h), _, rfl, ⟨htarget, ?_, ?_, rfl⟩, gives_pure _ _⟩
      · rw [Request.grantee, hrequested]
        rfl
      · rw [changesOf, hrequested]
        rfl
  | true =>
      refine (provisionRunner_outcome accepted _ hrequested htarget hpresent).imp ?_ id
      rintro ⟨ready, i, hi, hgives⟩
      refine ⟨fun _ => ready, _, rfl, ⟨htarget, ?_, ?_, rfl⟩, hgives⟩
      · rw [Request.grantee, hrequested, ← hi]
        rfl
      · rw [changesOf, hrequested]
        rfl

/-- The directories of a request are granted, if it has any, and the report tells; or the run
stops. -/
theorem directories_outcome (accepted : Accepted request S)
    (hrunner : request.runnerRequested = true → RunnerReady request S) {target : Option Identity}
    {R : Report} (hR : R.directoriesGranted = [])
    (htarget : target.map Identity.name = request.targetName S.accounts.sessionUser)
    (hpresent : ∀ t, target = some t → t.present = true) :
    ((request.directories ≠ [] → ∀ name,
        request.targetName S.accounts.sessionUser = some name → TargetReady request S name) ∧
      Gives Progress.seen (directoriesStep request target) (S.withRunner request, R) ()
        (S.complete request, { R with directoriesGranted := request.directories })) ∨
    Stops (directoriesStep request target) request S .directories (S.withRunner request) R := by
  unfold directoriesStep
  by_cases hpaths : request.directories = []
  · have hsame : { R with directoriesGranted := request.directories } = R := by rw [hpaths, ← hR]
    rw [hsame, Stores.complete, AccessTable.offered_of_directories_nil hpaths]
    exact .inl ⟨fun h => absurd hpaths h, Gives.ite_neg (by simp [hpaths]) (gives_pure _ _)⟩
  · have hsome : (!request.directories.isEmpty) = true := by simp [hpaths]
    rw [if_pos hsome]
    obtain ⟨name, hname⟩ := exists_targetName accepted.options hpaths S.accounts.sessionUser
    cases target with
    | none =>
        rw [hname] at htarget
        exact nomatch htarget
    | some t =>
        refine (provisionDirectories_outcome accepted hrunner R hpaths htarget.symm
          (hpresent t rfl)).imp
          (fun ⟨ready, hgives⟩ => ⟨fun _ other hother => ?_, hgives⟩) id
        rw [← htarget] at hother
        exact Option.some.inj hother ▸ ready

/-- A step that comes after one that gives a value stops the run for its own reasons. -/
theorem Stops.after {α β : Type} {act : Step α} {next : α → Step β} {phase : Phase}
    {S₀ S₁ : Stores} {R R₁ : Report} {a : α}
    (hact : Gives Progress.seen act (S₀, R) a (S₁, R₁))
    (hnext : Stops (next a) request S phase S₁ R₁) :
    Stops (act >>= next) request S phase S₀ R := by
  obtain ⟨P, S', R', hfails, hstopped⟩ := hnext
  exact ⟨P, S', R', hact.bind_fails hfails, hstopped⟩

theorem Stops.before {α β : Type} {act : Step α} {phase : Phase} {S₀ : Stores} {R : Report}
    (hact : Stops act request S phase S₀ R) (next : α → Step β) :
    Stops (act >>= next) request S phase S₀ R := by
  obtain ⟨P, S', R', hfails, hstopped⟩ := hact
  exact ⟨P, S', R', hfails.bind next, hstopped⟩

/-- What becomes of an accepted run: it returns with everything done and a report that tells, or it
stops for one of the reasons there are. -/
theorem apply_outcome (htables : o.OnTables) (accepted : Accepted request S) (platform : String) :
    (Ready request S ∧ ∃ R : Report, R.Tells request S ∧
      Gives Progress.seen (o.apply request) (S, { platform }) () (S.complete request, R)) ∨
    ∃ phase, Stops (o.apply request) request S phase S { platform } := by
  rw [apply_eq htables]
  by_cases hempty : request.targetName S.accounts.sessionUser = some ""
  · refine .inr ⟨.target, Stops.before ⟨_, S, _, fails_resolveTarget htables hempty, ?_⟩ _⟩
    rintro e rfl
    exact .targetUnnamed hempty
  · obtain ⟨target, htarget, hpresent, hresolve⟩ :=
      gives_resolveTarget htables accepted platform hempty
    obtain ⟨hrunner, R₁, hR₁, htells, hgives₁⟩ | hstops :=
      runner_outcome accepted platform htarget hpresent
    · obtain ⟨hpaths, hgives₂⟩ | hstops := directories_outcome accepted hrunner hR₁ htarget hpresent
      · exact .inl ⟨⟨hempty, hrunner, hpaths⟩, _, htells, hresolve.bind (hgives₁.bind
          (hgives₂.bind (Step.gives_ofRun (gives_log _ _ _))))⟩
      · exact .inr ⟨_, ((hstops.before _).after hgives₁).after hresolve⟩
    · exact .inr ⟨_, (hstops.before _).after hresolve⟩

end Orchestrator

end Provisioning
