/-
# `Provisioning.Proofs.Validation` — what a refusal of the request leaves behind

A refusal of the validation family is meant to say that nothing was touched.
With the backends of windows kept in memory that is so for every request but
one kind: a runner is wanted and given as the empty text.  Validation and the
plan count an empty text as not given, but the runner is then looked up under
the empty name, and by that time the account to be created exists.

**Stated here.**  Exactly when such a refusal comes too late, and exactly when
it has changed anything.  That the operator's own account is in the table is
what the table is made with (`AccountTable.has_sessionUser_ofNames`).
-/
import Provisioning.Proofs.Windows.Run

namespace Provisioning

/-- The failure belongs to the refusals before any change. -/
def Fault.isValidation : Fault → Bool
  | .refused r => r.kind.isValidation
  | _ => false

variable {o : Orchestrator} {request : Request} {S : Stores}

/-! ## The accounts that a run is about are there -/

/-- The target of an accepted run is there, once it was created. -/
theorem Accepted.has_targetName (accepted : Accepted request S)
    (hsession : S.accounts.has S.accounts.sessionUser = true) {name : String}
    (hname : request.targetName S.accounts.sessionUser = some name) :
    (S.accounts.ensured request).has name = true := by
  unfold Request.targetName at hname
  cases hcreate : given request.createUser with
  | some new =>
      rw [hcreate] at hname
      cases hname
      obtain ⟨-, credential, hpassword, -⟩ := Orchestrator.of_checkOptions accepted.options hcreate
      rw [AccountTable.ensured_of_create hcreate hpassword]
      exact AccountTable.has_withAccount_self _ _ _
  | none =>
      rw [hcreate] at hname
      rw [AccountTable.ensured_of_none hcreate]
      cases huser : given request.user with
      | some user =>
          rw [huser] at hname
          cases hname
          exact accepted.user _ huser
      | none =>
          rw [huser] at hname
          dsimp only at hname
          split at hname
          · cases hname
            exact hsession
          · exact nomatch hname

/-- The runner of an accepted run is there if it has a name, once the target was created. -/
theorem Accepted.has_runnerName (accepted : Accepted request S)
    (hsession : S.accounts.has S.accounts.sessionUser = true)
    (hne : request.runnerName S.accounts.sessionUser ≠ "") :
    (S.accounts.ensured request).has (request.runnerName S.accounts.sessionUser) = true := by
  unfold Request.runnerName at hne ⊢
  cases hrunner : given request.runner with
  | none =>
      rw [hrunner] at hne
      cases hname : request.runner with
      | none => exact AccountTable.has_ensured_of_has hsession request
      | some name =>
          rw [hname] at hrunner hne
          have hne' : name ≠ "" := hne
          rw [given_some_of_ne hne'] at hrunner
          exact nomatch hrunner
  | some name =>
      obtain ⟨hgiven, -⟩ := given_eq_some_iff.1 hrunner
      cases htarget : request.targetName S.accounts.sessionUser with
      | none =>
          dsimp only
          rw [hgiven]
          exact Orchestrator.has_runner accepted hrunner fun t ht => by
            rw [htarget] at ht
            exact nomatch ht
      | some target =>
          dsimp only
          cases hsame : sameAccount (some name) (some target) with
          | true => exact accepted.has_targetName hsession htarget
          | false =>
              refine Orchestrator.has_runner accepted hrunner fun t ht => ?_
              rw [htarget] at ht
              cases ht
              exact hsame

/-! ## The runner that comes to light too late -/

/-- A runner is wanted, and given as the empty text, which names no account. -/
def RunnerBlank (request : Request) (t : AccountTable) : Prop :=
  request.runnerRequested = true ∧ request.runner = some "" ∧ t.has "" = false

theorem RunnerBlank.runnerName_eq {sessionUser : String} (blank : RunnerBlank request S.accounts) :
    request.runnerName sessionUser = "" := by
  unfold Request.runnerName
  rw [blank.2.1]
  rfl

theorem SecurityPolicy.isValidation_grantFault {name : String} {f : Fault}
    (hf : f.isValidation = false) : (grantFault name f).isValidation = false := by
  cases f with
  | system e => rfl
  | _ => exact hf

/-- Of the reasons to stop only the blank runner is a refusal of the validation family, unless
grants are refused with one; and it stops the run after the target was created. -/
theorem Stopped.validation_cases {phase : Phase} {e : Fault} {S' : Stores}
    (hstopped : Stopped request S phase e S') (accepted : Accepted request S)
    (hsession : S.accounts.has S.accounts.sessionUser = true)
    (hfailure : ∀ f, S.rights.failure = some f → f.isValidation = false) :
    (e.isValidation = true ∧ RunnerBlank request S.accounts ∧ S' = S.withTarget request) ∨
      (e.isValidation = false ∧ ¬ RunnerBlank request S.accounts) := by
  cases hstopped with
  | targetUnnamed hempty =>
      refine .inr ⟨rfl, fun blank => ?_⟩
      -- the operator would be the account with the empty name
      have hhas := accepted.has_targetName hsession hempty
      rw [AccountTable.has_empty_ensured, blank.2.2] at hhas
      exact nomatch hhas
  | runnerUnnamed hrequested hempty hknown => exact .inr ⟨rfl, fun blank => hknown blank.2⟩
  | runnerUnknown hrequested hempty hnew => exact .inl ⟨rfl, ⟨hrequested, hempty, hnew⟩, rfl⟩
  | runnerMissing hrequested hname hne hnew =>
      have hhas := accepted.has_runnerName hsession (hname ▸ hne)
      rw [hname, hnew] at hhas
      exact nomatch hhas
  | @grantRefused f hrequested hnamed hlacking hrefused =>
      exact .inr ⟨SecurityPolicy.isValidation_grantFault (hfailure f hrefused),
        fun blank => hnamed blank.runnerName_eq⟩
  | targetMissing hrunner hpaths hname hnew =>
      have hhas := accepted.has_targetName hsession hname
      rw [hnew] at hhas
      exact nomatch hhas
  | pathClosed hrunner hpaths hname hclosed =>
      exact .inr ⟨rfl, fun blank => (hrunner blank.1).named blank.runnerName_eq⟩

theorem Ready.not_runnerBlank (ready : Ready request S) : ¬ RunnerBlank request S.accounts :=
  fun blank => (ready.runner blank.1).named blank.runnerName_eq

/-! ## The refusals of a run -/

namespace Orchestrator

open Run

/-- The steps of a run that has begun raise a refusal of the validation family exactly for a blank
runner, after the target was created. -/
theorem apply_validation_cases (htables : o.OnTables) (accepted : Accepted request S)
    (hsession : S.accounts.has S.accounts.sessionUser = true)
    (hfailure : ∀ f, S.rights.failure = some f → f.isValidation = false) {h : Host}
    (hS : h.stores = S) :
    (RunnerBlank request S.accounts ∧
      ∃ e p, o.apply request ⟨h, { platform := o.capability.name }⟩ = .error e p ∧
        e.isValidation = true ∧ p.host.stores = S.withTarget request) ∨
    (¬ RunnerBlank request S.accounts ∧
      ∀ e p, o.apply request ⟨h, { platform := o.capability.name }⟩ = .error e p →
        e.isValidation = false) := by
  obtain ⟨p, hp, ready, -⟩ | ⟨e, p, phase, hp, hstopped⟩ := apply_cases htables accepted hS
  · refine .inr ⟨ready.not_runnerBlank, fun e' p' herror => ?_⟩
    rw [hp] at herror
    exact nomatch herror
  · obtain ⟨hvalidation, blank, hS'⟩ | ⟨hvalidation, hnot⟩ :=
      hstopped.validation_cases accepted hsession hfailure
    · exact .inl ⟨blank, e, p, hp, hvalidation, hS'⟩
    · refine .inr ⟨hnot, fun e' p' herror => ?_⟩
      rw [hp] at herror
      cases herror
      exact hvalidation

/-- **Refusals of the validation family.**  One of them has changed the stores exactly when the run
has begun, its runner is blank and its target was new.  Once a run has begun, one of them is raised
exactly when the runner is blank; and until it has, after validation, only the operator's no is
one. -/
theorem validation_refusal_iff (htables : o.OnTables) (hkeeps : o.ConfirmKeepsStores request)
    (s : Session)
    (hsession : s.host.accounts.has s.host.accounts.sessionUser = true)
    (hfailure : ∀ f, s.host.rights.failure = some f → f.isValidation = false) :
    ((∃ e s', o.run request s = .error e s' ∧ e.isValidation = true ∧
        s'.host.stores ≠ s.host.stores) ↔
      (∃ h, o.Begins request s h) ∧ RunnerBlank request s.host.accounts ∧
        request.creates s.host.accounts = true) ∧
    (∀ h, o.Begins request s h →
      ((∃ e p, o.apply request ⟨h, { platform := o.capability.name }⟩ = .error e p ∧
          e.isValidation = true) ↔
        RunnerBlank request s.host.accounts)) ∧
    ∀ h h' e, o.validate request s.host = .ok () h → o.confirm request h = .error e h' →
      e = .refused (Refusal.usual .operationCancelled) ∨
        ∃ ask q h₁, o.confirmation = some ask ∧ ask q h₁ = .error e h' := by
  refine ⟨?_, fun h hbegins => ?_, fun h h' e _ herror => of_confirm_error htables herror⟩
  · obtain ⟨e, h, hnot, hrun, hstores⟩ | ⟨h, hbegins⟩ := begins_or_stores_eq htables hkeeps s
    · constructor
      · rintro ⟨e', s', hrun', -, hchanged⟩
        rw [hrun] at hrun'
        cases hrun'
        exact absurd hstores hchanged
      · rintro ⟨⟨h', hbegins⟩, -⟩
        exact absurd hbegins (hnot h')
    · have hrun := run_eq_of_begins hbegins
      obtain ⟨hS, accepted⟩ := of_begins htables hkeeps hbegins
      obtain ⟨blank, e, p, hp, hvalidation, hS'⟩ | ⟨hnot, hother⟩ :=
        apply_validation_cases htables accepted hsession hfailure hS
      · rw [hp] at hrun
        constructor
        · rintro ⟨e', s', hrun', -, hchanged⟩
          rw [hrun] at hrun'
          cases hrun'
          exact ⟨⟨h, hbegins⟩, blank, accepted.withTarget_ne_iff.1 (hS' ▸ hchanged)⟩
        · rintro ⟨-, -, hcreates⟩
          exact ⟨e, _, hrun, hvalidation, hS' ▸ accepted.withTarget_ne_iff.2 hcreates⟩
      · constructor
        · rintro ⟨e', s', hrun', hvalidation, -⟩
          cases hp : o.apply request ⟨h, { platform := o.capability.name }⟩ with
          | ok u p =>
              rw [hrun, hp] at hrun'
              exact nomatch hrun'
          | error e p =>
              rw [hrun, hp] at hrun'
              cases hrun'
              rw [hother _ p hp] at hvalidation
              exact nomatch hvalidation
        · rintro ⟨-, blank, -⟩
          exact absurd blank hnot
  · obtain ⟨hS, accepted⟩ := of_begins htables hkeeps hbegins
    obtain ⟨blank, e, p, hp, hvalidation, -⟩ | ⟨hnot, hother⟩ :=
      apply_validation_cases htables accepted hsession hfailure hS
    · exact ⟨fun _ => blank, fun _ => ⟨e, p, hp, hvalidation⟩⟩
    · refine ⟨?_, fun blank => absurd blank hnot⟩
      rintro ⟨e', p', herror, hvalidation⟩
      rw [hother e' p' herror] at hvalidation
      exact nomatch hvalidation

/-- An account is created for a request whose runner then turns out to be blank. -/
theorem validation_refusal_iff_carol :
    let s : Session := ⟨{ accounts := AccountTable.ofNames ["svc"] "operator" }, none⟩
    let o : Orchestrator :=
      { capability := .windows .table .table .table, confirmation := some (fixedAnswer true []) }
    let request : Request :=
      { createUser := some "carol", password := some ⟨"pw"⟩, runnerRequested := true,
        runner := some "" }
    ∃ e s', o.run request s = .error e s' ∧ e.isValidation = true ∧
      s'.host.stores ≠ s.host.stores := by
  intro s o request
  have hkeeps : o.AskKeepsStores := by
    rintro ask ⟨⟩ q h
    exact stores_fixedAnswer true q h
  have hlaw := validation_refusal_iff (o := o) rfl
    (confirmKeepsStores_of_ask (o := o) rfl hkeeps request) s
    (AccountTable.has_sessionUser_ofNames ["svc"] "operator") fun f hf => nomatch hf
  exact hlaw.1.2 ⟨⟨_, rfl⟩, ⟨rfl, rfl, by decide⟩, by decide⟩

/-- A refusal of the validation family may leave an account behind. -/
theorem not_untouched_after_validation_refusal :
    ¬ ∀ (o : Orchestrator) (request : Request) (s : Session), o.OnTables →
      o.ConfirmKeepsStores request →
      s.host.accounts.has s.host.accounts.sessionUser = true → s.host.rights.failure = none →
      ∀ e s', o.run request s = .error e s' → e.isValidation = true →
        s'.host.stores = s.host.stores := by
  intro huntouched
  have hsame := huntouched { capability := .windows .table .table .table }
    { createUser := some "carol", password := some ⟨"pw"⟩, runnerRequested := true,
      runner := some "" }
    ⟨{ accounts := AccountTable.ofNames ["svc"] "operator" }, none⟩ rfl (fun _ => rfl)
    (AccountTable.has_sessionUser_ofNames ["svc"] "operator") rfl _ _ rfl rfl
  have hcreated := congrArg (fun S => S.accounts.created) hsame
  exact absurd hcreated (by decide)

end Orchestrator

end Provisioning
