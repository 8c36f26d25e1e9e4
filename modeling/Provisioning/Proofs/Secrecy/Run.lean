/-
# `Provisioning.Proofs.Secrecy.Run` — two runs that differ in the password

The password of a request goes into the account that is created, and from
there into the identity that the report names.  Nothing that is logged, asked
or raised is made from it, and what is shown of an identity leaves it out.

So two runs on one host whose requests differ in the password alone are put
side by side.  Until the first change they are one run; from then on their
hosts are twins, their reports are the same when the passwords are left out
(`Report.erased`), and each step goes alike in both.
-/
import Provisioning.Proofs.Host.Alike
import Provisioning.Proofs.Windows.Run

namespace Provisioning

/-! ## Identities and reports without passwords -/

/-- The identity without its password. -/
def Identity.erased (i : Identity) : Identity := { i with credential := none }

/-- The identities are the same but for the password. -/
def Identity.Twin (i i' : Identity) : Prop := i'.erased = i.erased

/-- There is no target on either side, or one that is the same but for the password. -/
def TargetTwin (target target' : Option Identity) : Prop :=
  target'.map Identity.erased = target.map Identity.erased

namespace Identity.Twin

variable {i i' : Identity}

theorem refl (i : Identity) : i.Twin i := rfl

theorem erased_eq (twin : i.Twin i') : i'.erased = i.erased := twin

theorem name_eq (twin : i.Twin i') : i'.name = i.name := by
  have hname := congrArg Identity.name twin.erased_eq
  exact hname

theorem present_eq (twin : i.Twin i') : i'.present = i.present := by
  have hpresent := congrArg Identity.present twin.erased_eq
  exact hpresent

theorem source_eq (twin : i.Twin i') : i'.source = i.source := by
  have hsource := congrArg Identity.source twin.erased_eq
  exact hsource

end Identity.Twin

namespace Report

/-- The report without the passwords of the accounts that it names. -/
def erased (R : Report) : Report :=
  { R with target := R.target.map Identity.erased, runner := R.runner.map Identity.erased }

/-- The reports are the same but for the passwords. -/
def Twin (R R' : Report) : Prop := R'.erased = R.erased

/-! Nothing that is made of a report shows a password. -/

theorem inspect_erased (R : Report) : R.erased.inspect = R.inspect := by
  obtain ⟨platform, target, runner, -⟩ := R
  cases target <;> cases runner <;> rfl

theorem summary_erased (R : Report) : R.erased.summary = R.summary := by
  obtain ⟨platform, target, runner, created, -, directories, -⟩ := R
  cases target <;> cases runner <;> cases created <;> cases directories <;> rfl

theorem dump_erased (R : Report) : R.erased.dump = R.dump := by
  obtain ⟨platform, target, runner, -⟩ := R
  cases target <;> cases runner <;> rfl

namespace Twin

variable {R R' : Report}

theorem refl (R : Report) : R.Twin R := rfl

theorem erased_eq (twin : R.Twin R') : R'.erased = R.erased := twin

theorem inspect_eq (twin : R.Twin R') : R'.inspect = R.inspect := by
  rw [← inspect_erased, twin, inspect_erased]

theorem summary_eq (twin : R.Twin R') : R'.summary = R.summary := by
  rw [← summary_erased, twin, summary_erased]

theorem dump_eq (twin : R.Twin R') : R'.dump = R.dump := by
  rw [← dump_erased, twin, dump_erased]

end Twin

end Report

/-! ## Steps on the backends -/

section
variable {new : String → Prop} {i i' : Identity}

open Run

namespace IdentityStore

theorem alike_exists? (name : String) :
    Alike Eq (Host.Twin new) (exists? .table name) (exists? .table name) := by
  refine alike_get_bind ?_
  rintro h _ ⟨t, rfl, twin⟩
  exact .ok (twin.has_eq name).symm ⟨t, rfl, twin⟩

theorem alike_resolve (name : Option String) :
    Alike Eq (Host.Twin new) (resolve .table name) (resolve .table name) := by
  cases name with
  | none =>
      have hsession : Alike Eq (Host.Twin new) (sessionUser .table) (sessionUser .table) := by
        refine alike_get_bind ?_
        rintro h _ ⟨t, rfl, twin⟩
        exact .ok twin.sessionUser_eq.symm ⟨t, rfl, twin⟩
      refine hsession.bind ?_
      rintro session _ rfl
      exact (alike_log _ _ _).bind fun _ _ _ => alike_ofExcept _
  | some name =>
      refine (alike_exists? name).bind ?_
      rintro found _ rfl
      exact Alike.ite (alike_ofExcept _) (alike_throw _)

theorem alike_requireExisting (twin : i.Twin i') :
    Alike Identity.Twin (Host.Twin new) (requireExisting .table i) (requireExisting .table i') := by
  unfold requireExisting
  rw [twin.name_eq, twin.present_eq]
  refine Alike.ite (alike_throw _) ((alike_exists? i.name).bind ?_)
  rintro found _ rfl
  exact Alike.ite (alike_pure twin) (alike_throw _)

end IdentityStore

namespace SecurityPolicy

theorem alike_accountRights (name : String) :
    Alike Eq (Host.Twin new) (accountRights .table name) (accountRights .table name) := by
  refine alike_get_bind ?_
  rintro h _ ⟨t, rfl, twin⟩
  exact .ok rfl ⟨t, rfl, twin⟩

theorem alike_addAccountRights (name : String) (privileges : PrivilegeSet) :
    Alike Eq (Host.Twin new) (addAccountRights .table name privileges)
      (addAccountRights .table name privileges) := by
  refine (alike_note _).bind fun _ _ _ => alike_get_bind ?_
  rintro h _ ⟨t, rfl, twin⟩
  dsimp only
  refine (alike_ofExcept (h.rights.add name privileges) h _ ⟨t, rfl, twin⟩).bind ?_
  rintro rights _ rfl
  refine alike_modify ?_
  rintro h _ ⟨t, rfl, twin⟩
  exact ⟨t, rfl, twin⟩

theorem alike_addMissing (name : String) (privileges : PrivilegeSet) :
    Alike Eq (Host.Twin new) (addMissing .table name privileges)
      (addMissing .table name privileges) := by
  refine (alike_accountRights name).bind ?_
  rintro held _ rfl
  refine Alike.ite ((alike_log _ _ _).bind fun _ _ _ => alike_pure rfl) ?_
  exact (alike_log _ _ _).bind fun _ _ _ =>
    (alike_addAccountRights _ _).bind fun _ _ _ => alike_pure rfl

theorem alike_grant (twin : i.Twin i') (privileges : PrivilegeSet) :
    Alike Eq (Host.Twin new) (grant .table .table i privileges)
      (grant .table .table i' privileges) := by
  unfold grant
  rw [twin.name_eq]
  exact (IdentityStore.alike_requireExisting twin).bind fun _ _ _ =>
    alike_mapFault (alike_addMissing _ _) _

end SecurityPolicy

namespace AccessControl

theorem alike_entries (path : String) :
    Alike Eq (Host.Twin new) (entries .table path) (entries .table path) := by
  refine alike_get_bind ?_
  rintro h _ ⟨t, rfl, twin⟩
  exact .ok rfl ⟨t, rfl, twin⟩

theorem alike_setEntry (path name : String) (rights : AccessRights) :
    Alike Eq (Host.Twin new) (setEntry .table path name rights)
      (setEntry .table path name rights) := by
  refine (alike_note _).bind fun _ _ _ => alike_get_bind ?_
  rintro h _ ⟨t, rfl, twin⟩
  dsimp only
  refine (alike_ofExcept (h.access.setEntry path name rights) h _ ⟨t, rfl, twin⟩).bind ?_
  rintro access _ rfl
  refine alike_modify ?_
  rintro h _ ⟨t, rfl, twin⟩
  exact ⟨t, rfl, twin⟩

/-- The grants are on the same path. -/
def SamePath (g g' : DirectoryGrant) : Prop := g'.path = g.path

theorem alike_grant (twin : i.Twin i') (path : String) (rights : AccessRights) :
    Alike SamePath (Host.Twin new) (grant .table .table i path rights)
      (grant .table .table i' path rights) := by
  unfold grant
  rw [twin.name_eq]
  refine (IdentityStore.alike_requireExisting twin).bind fun _ _ _ =>
    (alike_pathExists _).bind ?_
  rintro found _ rfl
  refine Alike.ite (alike_throw _) ((alike_entries path).bind ?_)
  rintro entries _ rfl
  refine Alike.ite ((alike_log _ _ _).bind fun _ _ _ => alike_pure rfl) ?_
  exact (alike_log _ _ _).bind fun _ _ _ =>
    (alike_setEntry _ _ _).bind fun _ _ _ => alike_pure rfl

/-- The same paths were granted, and the same refused. -/
def SameResults (r r' : GrantResults) : Prop :=
  r'.granted.map DirectoryGrant.path = r.granted.map DirectoryGrant.path ∧ r'.failures = r.failures

theorem alike_attemptAll (twin : i.Twin i') (rights : AccessRights) : ∀ paths : List String,
    Alike SameResults (Host.Twin new) (attemptAll .table .table i rights paths)
      (attemptAll .table .table i' rights paths)
  | [] => alike_pure ⟨rfl, rfl⟩
  | path :: rest => by
      refine (alike_catchRefusal (alike_grant twin path rights)).bind ?_
      rintro _ _ (hpath | _)
      · refine (alike_attemptAll twin rights rest).bind ?_
        rintro results results' ⟨hgranted, hfailures⟩
        refine alike_pure ⟨?_, hfailures⟩
        simp only [List.map_cons, hgranted, List.cons.injEq, and_true]
        exact hpath
      · refine (alike_log _ _ _).bind fun _ _ _ => (alike_attemptAll twin rights rest).bind ?_
        rintro results results' ⟨hgranted, hfailures⟩
        exact alike_pure ⟨hgranted, by simp only [hfailures]⟩

theorem alike_grantAll (twin : i.Twin i') (paths : List String) (rights : AccessRights) :
    Alike (fun gs gs' => gs'.map DirectoryGrant.path = gs.map DirectoryGrant.path)
      (Host.Twin new) (grantAll .table .table i paths rights)
      (grantAll .table .table i' paths rights) := by
  refine (IdentityStore.alike_requireExisting twin).bind fun _ _ _ =>
    (alike_attemptAll twin rights paths).bind ?_
  rintro results results' ⟨hgranted, hfailures⟩
  rw [hfailures]
  exact Alike.ite (alike_pure hgranted) (alike_throw _)

end AccessControl

end

/-! ## Steps of a run that has begun -/

/-- The hosts are twins, and so are the reports. -/
def Progress.Twin (new : String → Prop) (p p' : Progress) : Prop :=
  p.host.Twin new p'.host ∧ p.report.Twin p'.report

section
variable {new : String → Prop} {request : Request} {target target' : Option Identity}

namespace Step

variable {α α' : Type} {Q : α → α' → Prop}

theorem endsAlike_ofRun {act : Run α} {act' : Run α'} {h h' : Host} {R R' : Report}
    (hends : EndsAlike Q (Host.Twin new) (act h) (act' h')) (hreport : R.Twin R') :
    EndsAlike Q (Progress.Twin new) (ofRun act ⟨h, R⟩) (ofRun act' ⟨h', R'⟩) := by
  unfold ofRun
  dsimp only
  generalize act h = r, act' h' = r' at hends ⊢
  cases hends with
  | ok hvalue hstate => exact .ok hvalue ⟨hstate, hreport⟩
  | error hstate => exact .error ⟨hstate, hreport⟩

theorem alike_ofRun {act : Run α} {act' : Run α'} (h : Alike Q (Host.Twin new) act act') :
    Alike Q (Progress.Twin new) (ofRun act) (ofRun act') :=
  fun _ _ twin => endsAlike_ofRun (h _ _ twin.1) twin.2

theorem alike_report {change change' : Report → Report}
    (h : ∀ R R' : Report, R.Twin R' → (change R).Twin (change' R')) :
    Alike Eq (Progress.Twin new) (report change) (report change') :=
  alike_modify fun _ _ twin => ⟨twin.1, h _ _ twin.2⟩

end Step

namespace Orchestrator

open Run

theorem alike_runnerOf (twin : TargetTwin target target') :
    Alike Identity.Twin (Host.Twin new) (Capability.runnerOf .table request target)
      (Capability.runnerOf .table request target') := by
  have hresolve : Alike Identity.Twin (Host.Twin new)
      (IdentityStore.resolve .table request.runner)
      (IdentityStore.resolve .table request.runner) := fun h h' hR =>
    (IdentityStore.alike_resolve request.runner h h' hR).imp (fun _ _ heq => heq ▸ .refl _)
      fun _ _ => id
  unfold Capability.runnerOf
  cases given request.runner with
  | none => exact hresolve
  | some name =>
      cases target with
      | none =>
          cases target' with
          | none => exact hresolve
          | some t' => exact nomatch twin
      | some t =>
          cases target' with
          | none => exact nomatch twin
          | some t' =>
              have htwin : t.Twin t' := Option.some.inj twin
              dsimp only
              rw [htwin.name_eq]
              exact Alike.ite (alike_pure htwin) hresolve

theorem alike_runnerStep (twin : TargetTwin target target') :
    Alike Eq (Progress.Twin new) (runnerStep request target) (runnerStep request target') := by
  refine Alike.ite ?_ (alike_pure rfl)
  refine (Step.alike_ofRun (alike_runnerOf twin)).bind fun i i' htwin => ?_
  refine (Step.alike_report fun R R' hR => ?_).bind fun _ _ _ => ?_
  · show ({ R'.erased with runner := some i'.erased } : Report) =
      { R.erased with runner := some i.erased }
    rw [hR.erased_eq, htwin.erased_eq]
  · refine (Step.alike_ofRun (SecurityPolicy.alike_grant htwin _)).bind ?_
    rintro added _ rfl
    refine Step.alike_report fun R R' hR => ?_
    show ({ R'.erased with
        privilegesGranted := added.toList, restartRequired := !added.isEmpty } : Report) =
      { R.erased with privilegesGranted := added.toList, restartRequired := !added.isEmpty }
    rw [hR.erased_eq]

theorem alike_directoriesStep (twin : TargetTwin target target') :
    Alike Eq (Progress.Twin new) (directoriesStep request target)
      (directoriesStep request target') := by
  refine Alike.ite ?_ (alike_pure rfl)
  unfold Capability.provisionDirectories
  cases target with
  | none =>
      cases target' with
      | none => exact alike_throw _
      | some t' => exact nomatch twin
  | some t =>
      cases target' with
      | none => exact nomatch twin
      | some t' =>
          have htwin : t.Twin t' := Option.some.inj twin
          dsimp only
          rw [htwin.name_eq]
          refine (Step.alike_ofRun (alike_log _ _ _)).bind fun _ _ _ =>
            (Step.alike_ofRun (AccessControl.alike_grantAll htwin _ _)).bind fun gs gs' hpaths => ?_
          refine Step.alike_report fun R R' hR => ?_
          show ({ R'.erased with directoriesGranted := gs'.map DirectoryGrant.path } : Report) =
            { R.erased with directoriesGranted := gs.map DirectoryGrant.path }
          rw [hR.erased_eq, hpaths]

end Orchestrator

end

/-! ## The account that is created -/

/-- The request with another password. -/
def Request.withPassword (request : Request) (credential : Credential) : Request :=
  { request with password := some credential }

section
variable {new : String → Prop} {name : String} {credential credential' : Credential} {h : Host}

/-- Tables with a new account are the same but for its password. -/
theorem AccountTable.twin_withAccount {t : AccountTable} (hname : new name)
    (hnew : t.has name = false) (credential credential' : Credential) :
    (t.withAccount name credential).Twin new (t.withAccount name credential') := by
  rw [withAccount_of_new hnew, withAccount_of_new hnew]
  refine .inr ⟨name, credential', hname, ?_, ?_⟩
  · rw [Table.contains, Table.get?_put_self]
    rfl
  · simp only [Table.put_put]

namespace IdentityStore

open Run

theorem create_of_new (hnew : h.accounts.has name = false) (credential : Credential) :
    create .table name credential h =
      .ok () { h with
        accounts := h.accounts.withAccount name credential
        journal := h.journal ++ [.requested (.createAccount name)] } := by
  have hcreate : create .table name credential h =
      (do
        let accounts ← Run.ofExcept (h.accounts.create name credential)
        modify fun h => { h with accounts } : Run Unit)
        { h with journal := h.journal ++ [.requested (.createAccount name)] } := rfl
  rw [hcreate, AccountTable.create_of_new hnew]
  rfl

/-- An account is resolved or created alike whatever its password is. -/
theorem endsAlike_resolveOrCreate (hne : name ≠ "") (hgiven : credential.isGiven = true)
    (hgiven' : credential'.isGiven = true) (hname : h.accounts.has name = false → new name) :
    EndsAlike Identity.Twin (Host.Twin new)
      (resolveOrCreate .table (some name) (some credential) h)
      (resolveOrCreate .table (some name) (some credential') h) := by
  have hfilter : ∀ c : Credential, c.isGiven = true →
      (some c).filter Credential.isGiven = some c := fun c hc => by simp [hc]
  have hexists : exists? .table name h = .ok (h.accounts.has name) h := rfl
  unfold resolveOrCreate
  rw [hfilter credential hgiven, hfilter credential' hgiven']
  dsimp only
  rw [given_some_of_ne hne]
  dsimp only
  rw [bind_apply_of_ok hexists, bind_apply_of_ok hexists]
  cases hnew : h.accounts.has name with
  | true =>
      rw [Identity.make?_of_ne hne]
      exact ((alike_log _ _ _).bind fun _ _ _ => alike_pure (.refl _)) h h (.refl new h)
  | false =>
      have hlog : Run.log .info .resolver ("Creating local account '" ++ name ++ "'") h =
          .ok () { h with journal := h.journal ++
            [.logged {
              level := .info, source := .resolver,
              message := "Creating local account '" ++ name ++ "'" }] } := rfl
      generalize hlogged : ({ h with journal := h.journal ++
          [.logged {
            level := .info, source := .resolver,
            message := "Creating local account '" ++ name ++ "'" }] } : Host) = h₁ at hlog
      have hnew₁ : h₁.accounts.has name = false := by
        rw [← hlogged]
        exact hnew
      have hname₁ : new name := hname hnew
      rw [if_neg Bool.false_ne_true, if_neg Bool.false_ne_true, bind_apply_of_ok hlog,
        bind_apply_of_ok hlog, bind_apply_of_ok (create_of_new hnew₁ credential),
        bind_apply_of_ok (create_of_new hnew₁ credential'), Identity.make?_of_ne hne,
        Identity.make?_of_ne hne]
      exact .ok rfl ⟨_, rfl, AccountTable.twin_withAccount hname₁ hnew₁ _ _⟩

end IdentityStore

end

namespace Orchestrator

open Run

variable {o : Orchestrator} {request : Request} {credential credential' : Credential}

/-- Until the first change the runs are one: requests are checked alike. -/
theorem validate_withPassword (htables : o.OnTables) (hgiven : credential.isGiven = true)
    (hgiven' : credential'.isGiven = true) :
    o.validate (request.withPassword credential') =
      o.validate (request.withPassword credential) := by
  have hoptions : checkOptions (request.withPassword credential') =
      checkOptions (request.withPassword credential) := by
    have hpassword : (request.withPassword credential).hasPassword = true := hgiven
    have hpassword' : (request.withPassword credential').hasPassword = true := hgiven'
    unfold checkOptions
    rw [hpassword, hpassword']
    rfl
  unfold validate
  rw [hoptions, htables]
  rfl

/-- And the operator is asked the same. -/
theorem confirm_withPassword (htables : o.OnTables) (request : Request)
    (credential credential' : Credential) :
    o.confirm (request.withPassword credential') = o.confirm (request.withPassword credential) := by
  unfold confirm
  rw [htables]
  rfl

/-- What is told of the target once it is known. -/
theorem alike_tell {new : String → Prop} {i i' : Identity} {change change' : Report → Report}
    (htwin : i.Twin i') (h : ∀ R R' : Report, R.Twin R' → (change R).Twin (change' R')) :
    Alike TargetTwin (Progress.Twin new) (do Step.report change; pure (some i))
      (do Step.report change'; pure (some i')) :=
  (Step.alike_report h).bind fun _ _ _ => alike_pure (congrArg some htwin.erased_eq)

theorem alike_resolve_tell {new : String → Prop} (name : Option String) :
    Alike TargetTwin (Progress.Twin new)
      (do let target ← Step.ofRun (IdentityStore.resolve .table name)
          Step.report fun r => { r with target := some target }
          pure (some target))
      (do let target ← Step.ofRun (IdentityStore.resolve .table name)
          Step.report fun r => { r with target := some target }
          pure (some target)) := by
  refine (Step.alike_ofRun (IdentityStore.alike_resolve name)).bind ?_
  rintro i _ rfl
  refine alike_tell (.refl i) fun R R' hR => ?_
  show ({ R'.erased with target := some i.erased } : Report) =
    { R.erased with target := some i.erased }
  rw [hR.erased_eq]

/-- The target is made out alike. -/
theorem endsAlike_resolveTarget (htables : o.OnTables) (hgiven : credential.isGiven = true)
    (hgiven' : credential'.isGiven = true) {new : String → Prop} {h : Host}
    (hnew : ∀ name, given request.createUser = some name → h.accounts.has name = false → new name)
    (R : Report) :
    EndsAlike TargetTwin (Progress.Twin new)
      (o.resolveTarget (request.withPassword credential) ⟨h, R⟩)
      (o.resolveTarget (request.withPassword credential') ⟨h, R⟩) := by
  have hstart : Progress.Twin new ⟨h, R⟩ ⟨h, R⟩ := ⟨.refl new h, .refl R⟩
  have hstore : o.capability.identities = .table := by rw [htables]; rfl
  unfold resolveTarget Request.withPassword
  rw [hstore]
  dsimp only
  cases hcreate : given request.createUser with
  | some name =>
      obtain ⟨hname, hne⟩ := given_eq_some_iff.1 hcreate
      rw [hname]
      refine EndsAlike.bind (Step.endsAlike_ofRun
        (IdentityStore.endsAlike_resolveOrCreate hne hgiven hgiven' (hnew name hcreate))
        (.refl R)) fun i i' htwin => alike_tell htwin fun R R' hR => ?_
      show ({ R'.erased with
          created := i'.source == .created, target := some i'.erased } : Report) =
        { R.erased with created := i.source == .created, target := some i.erased }
      rw [hR.erased_eq, htwin.erased_eq, htwin.source_eq]
  | none =>
      cases huser : given request.user with
      | some name => exact alike_resolve_tell request.user _ _ hstart
      | none =>
          exact Alike.ite (alike_resolve_tell none) (alike_pure rfl) _ _ hstart

/-- From the confirmation on the runs go alike. -/
theorem endsAlike_apply (htables : o.OnTables) (hgiven : credential.isGiven = true)
    (hgiven' : credential'.isGiven = true) {new : String → Prop} {h : Host}
    (hnew : ∀ name, given request.createUser = some name → h.accounts.has name = false → new name)
    (R : Report) :
    EndsAlike Eq (Progress.Twin new)
      (o.apply (request.withPassword credential) ⟨h, R⟩)
      (o.apply (request.withPassword credential') ⟨h, R⟩) := by
  rw [apply_eq htables, apply_eq htables]
  exact (endsAlike_resolveTarget htables hgiven hgiven' hnew R).bind fun target target' twin =>
    (alike_runnerStep twin).bind fun _ _ _ => (alike_directoriesStep twin).bind fun _ _ _ =>
      Step.alike_ofRun (alike_log _ _ _)

/-! ## The whole run -/

/-- The accounts that a run of a request may create: those it asks for that are not there when the
confirmation is done. -/
def Creates (o : Orchestrator) (request : Request) (s : Session) (name : String) : Prop :=
  given request.createUser = some name ∧
    ∃ h, o.Begins request s h ∧ h.accounts.has name = false

end Orchestrator

/-- The hosts are twins, and the same report is kept but for passwords. -/
structure Session.Twin (new : String → Prop) (s s' : Session) : Prop where
  host : s.host.Twin new s'.host
  report : s'.report.map Report.erased = s.report.map Report.erased

/-- What does not look at passwords is the same of both kept reports. -/
theorem Session.Twin.map_eq {α : Type} {new : String → Prop} {s s' : Session}
    (twin : s.Twin new s') {f : Report → α} (hf : ∀ R, f R.erased = f R) :
    s'.report.map f = s.report.map f := by
  have herased : ∀ report : Option Report, (report.map Report.erased).map f = report.map f := by
    intro report
    rw [Option.map_map]
    exact congrArg (report.map ·) (funext hf)
  rw [← herased, twin.report, herased]

/-- The requests are the same but for the password, and both have one. -/
structure Request.Twin (request request' : Request) : Prop where
  same : request' = { request with password := request'.password }
  given : request.hasPassword = true
  given' : request'.hasPassword = true

namespace Request.Twin

variable {request request' : Request}

theorem eq_withPassword (twin : request.Twin request') :
    ∃ credential credential' : Credential, credential.isGiven = true ∧
      credential'.isGiven = true ∧ request = request.withPassword credential ∧
      request' = request.withPassword credential' := by
  obtain ⟨credential, hpassword, hgiven⟩ := Option.any_eq_true _ _ |>.1 twin.given
  obtain ⟨credential', hpassword', hgiven'⟩ := Option.any_eq_true _ _ |>.1 twin.given'
  refine ⟨credential, credential', hgiven, hgiven', ?_, ?_⟩
  · rw [withPassword, ← hpassword]
  · rw [withPassword, ← hpassword']
    exact twin.same

/-- What is shown of a request leaves the password out. -/
theorem inspect_eq (twin : request.Twin request') : request'.inspect = request.inspect := by
  rw [twin.same]
  rfl

end Request.Twin

namespace Orchestrator

variable {o : Orchestrator} {request request' : Request}

/-- Two runs on one host whose requests differ in the password alone end alike. -/
theorem endsAlike_run (htables : o.OnTables) (twin : request.Twin request') (s : Session) :
    EndsAlike Report.Twin (Session.Twin (o.Creates request s)) (o.run request s)
      (o.run request' s) := by
  obtain ⟨credential, credential', hgiven, hgiven', hrequest, hrequest'⟩ := twin.eq_withPassword
  have hvalidate : o.validate request' = o.validate request := by
    rw [hrequest', validate_withPassword htables hgiven hgiven', ← hrequest]
  have hconfirm : o.confirm request' = o.confirm request := by
    rw [hrequest', confirm_withPassword htables request credential, ← hrequest]
  unfold run
  rw [hvalidate, hconfirm]
  cases hended : (do o.validate request; o.confirm request : Run Unit) s.host with
  | error e h => exact .error ⟨.refl _ h, rfl⟩
  | ok u h =>
      have hnew : ∀ name, given request.createUser = some name → h.accounts.has name = false →
          o.Creates request s name := fun name hname hhas => ⟨hname, h, hended, hhas⟩
      have hends := endsAlike_apply htables hgiven hgiven' hnew { platform := o.capability.name }
      rw [← hrequest, ← hrequest'] at hends
      dsimp only
      generalize o.apply request _ = r, o.apply request' _ = r' at hends ⊢
      cases hends with
      | ok _ hstate => exact .ok hstate.2 ⟨hstate.1, congrArg some hstate.2⟩
      | error hstate => exact .error ⟨hstate.1, congrArg some hstate.2⟩

end Orchestrator

end Provisioning
