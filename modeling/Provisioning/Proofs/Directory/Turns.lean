/-
# `Provisioning.Proofs.Directory.Turns` — which failures a batch gets past

A batch tries its paths one after the other.  Each path has its turn: a grant
there alone, on the host that the turns before have left.

    the turn ends in     the batch     what the batch reports
    a grant              goes on       the grant
    a refusal            goes on       the refusal, with all the others
    anything else        ends          that, and nothing of the other turns

So the turns are independent only where every failure is a refusal.  Those of
the access list editor are, but for an interrupt; that a path may not be looked
at is none, and neither is that the account program could not be asked.

**Stated here.**  What can stop a batch at a turn (`Obstacle`), and that a batch
comes to what its turns come to exactly if nothing stops it
(`batch_goes_on_iff`).
-/
import Provisioning.Proofs.Directory.Table
import Provisioning.Proofs.Host.Failure

namespace Provisioning

/-- A fault of a program that the access list editor does not report as a refusal. -/
def Fault.PastEditor : Fault → Prop
  | .refused _ | .system _ | .timedOut _ _ => False
  | _ => True

namespace AccessControl

open Run

variable {access : AccessControl} {store : IdentityStore} {i : Identity} {rights : AccessRights}
  {h : Host} {path name : String} {paths : List String} {e : Fault}

/-! ## What a grant can fail with, other than a refusal -/

theorem failsWith_runEditor_iff {executable : String} {limit : Number} {args : List String}
    (he : e.Uncaught) :
    FailsWith (runEditor executable limit (executable :: args) path) h e ↔
      h.StartFails (executable :: args) (some limit) e ∧ e.PastEditor := by
  have hanswered : ∀ (out : ProgramOutput) h', ¬ FailsWith
      (if out.succeeded = true then pure out
        else refuse .permissionDenied
          (executable ++ " failed on " ++ path ++ ": " ++ Text.trim out.complaint)
          [("path", .text path), ("exit_code", .int out.status)] : Run ProgramOutput) h' e := by
    intro out h'
    cases out.succeeded with
    | true => exact not_failsWith_of_ok (pure_apply out h')
    | false => exact not_failsWith_throw_of_uncaught he _
  rw [runEditor, failsWith_bind_iff, ← failsWith_command_iff []]
  simp only [hanswered, and_false, exists_false, or_false]
  constructor
  · rintro ⟨h', hmapped⟩
    cases hran : command (executable :: args) (some limit) [] h with
    | ok out h₁ =>
        rw [mapFault_eq_ok_iff.2 hran] at hmapped
        cases hmapped
    | error e₁ h₁ =>
        rw [mapFault_of_error hran] at hmapped
        cases e₁ with
        | refused r =>
            cases hmapped
            exact absurd rfl (he r)
        | system _ =>
            cases hmapped
            exact absurd rfl (he _)
        | timedOut _ _ =>
            cases hmapped
            exact absurd rfl (he _)
        | _ =>
            cases hmapped
            exact ⟨.of_error hran, trivial⟩
  · rintro ⟨⟨h', hran⟩, hpast⟩
    refine ⟨h', (mapFault_of_error hran _).trans ?_⟩
    cases e with
    | refused _ => exact hpast.elim
    | system _ => exact hpast.elim
    | timedOut _ _ => exact hpast.elim
    | _ => rfl

theorem failsWith_entries_iff (he : e.Uncaught) :
    FailsWith (access.entries path) h e ↔
      ∃ executable limit, access = .icacls executable limit ∧
        h.StartFails [executable, path] (some limit) e ∧ e.PastEditor := by
  cases access with
  | table => exact iff_of_false (not_failsWith_of_ok rfl) (by simp)
  | icacls executable limit =>
      rw [entries, failsWith_bind_iff, failsWith_runEditor_iff he]
      simp [failsWith_pure_iff, and_assoc]

theorem failsWith_setEntry_iff (he : e.Uncaught) :
    FailsWith (access.setEntry path name rights) h e ↔
      ∃ executable limit, access = .icacls executable limit ∧
        h.StartFails [executable, path, "/grant:r", name ++ ":" ++ rights.mask, "/C"] (some limit) e ∧
        e.PastEditor := by
  cases access with
  | table =>
      refine iff_of_false ?_ (by simp)
      rw [setEntry, failsWith_note_bind_iff, failsWith_get_bind_iff, failsWith_bind_iff]
      rintro (hrefused | ⟨t, h₁, -, hstored⟩)
      · unfold AccessTable.setEntry at hrefused
        split at hrefused
        · exact not_failsWith_throw_of_uncaught he _ hrefused
        · exact not_failsWith_of_ok rfl hrefused
      · exact not_failsWith_of_ok rfl hstored
  | icacls executable limit =>
      rw [setEntry, failsWith_note_bind_iff, failsWith_bind_iff, failsWith_runEditor_iff he,
        Host.startFails_noted _ (by simp)]
      simp [failsWith_pure_iff, and_assoc]

/-- What stops a batch at a path: the account program cannot be asked, the path may not be looked
at, or the access list editor fails past what it reports, in listing the entries or in setting one. -/
inductive Obstacle (access : AccessControl) (store : IdentityStore) (i : Identity) (path : String)
    (rights : AccessRights) (h : Host) : Fault → Prop where
  | account {executable : String} {limit : Number} {e : Fault} (hpresent : i.present = true)
      (hstore : store = .netUser executable limit)
      (hfails : h.StartFails [executable, "user", i.name] (some limit) e) :
      Obstacle access store i path rights h e
  | hidden {i' : Identity} {h₁ : Host} (hknown : store.requireExisting i h = .ok i' h₁)
      (hhidden : h₁.tree.Hidden (Path.ofString path)) :
      Obstacle access store i path rights h
        (.system (.about SystemError.accessDenied (Path.ofString path).toString))
  | listing {executable : String} {limit : Number} {i' : Identity} {h₁ : Host} {e : Fault}
      (haccess : access = .icacls executable limit)
      (hknown : store.requireExisting i h = .ok i' h₁) (hreach : Reachable h₁.tree path)
      (hfails : h₁.StartFails [executable, path] (some limit) e) (hpast : e.PastEditor) :
      Obstacle access store i path rights h e
  | edit {executable : String} {limit : Number} {i' : Identity} {h₁ h₂ : Host} {list : AccessList}
      {e : Fault} (haccess : access = .icacls executable limit)
      (hknown : store.requireExisting i h = .ok i' h₁) (hreach : Reachable h₁.tree path)
      (hlisted : access.entries path h₁ = .ok list h₂) (hother : list.get? i.name ≠ some rights)
      (hfails : h₂.StartFails
        [executable, path, "/grant:r", i.name ++ ":" ++ rights.mask, "/C"] (some limit) e)
      (hpast : e.PastEditor) : Obstacle access store i path rights h e

/-- Once the entries are known, nothing can fail but setting the entry that is not right yet. -/
theorem failsWith_settle_iff {list : AccessList} (he : e.Uncaught) :
    FailsWith (access.settle i path rights list) h e ↔
      list.get? i.name ≠ some rights ∧ FailsWith (access.setEntry path i.name rights) h e := by
  by_cases hright : list.get? i.name = some rights
  · rw [settle, if_pos hright]
    exact iff_of_false (not_failsWith_of_ok rfl) fun hfails => hfails.1 hright
  · rw [settle, if_neg hright, log, failsWith_note_bind_iff, failsWith_bind_iff,
      failsWith_setEntry_iff he, failsWith_setEntry_iff he]
    simp [failsWith_pure_iff, hright, Host.startFails_noted]

theorem obstacle_of_failsWith_grant (he : e.Uncaught)
    (hfails : FailsWith (access.grant store i path rights) h e) :
    Obstacle access store i path rights h e := by
  obtain ⟨h', hended⟩ := hfails
  have hgets := grantGets_grant access store i path rights h
  generalize access.grant store i path rights h = result at hended hgets
  cases hgets with
  | unconfirmed hunknown =>
      cases hended
      have hasked := (failsWith_requireExisting_iff he).1 (.of_error hunknown)
      obtain ⟨executable, limit, hstore, hfails⟩ := failsWith_exists?_iff.1 hasked.2
      exact .account hasked.1 hstore hfails
  | hidden hknown hhidden =>
      cases hended
      exact .hidden hknown hhidden
  | absent hknown _ =>
      cases hended
      exact absurd rfl (he _)
  | settled hknown hreach =>
      have hlast := failsWith_bind_iff.1 (.of_error hended)
      simp only [failsWith_entries_iff he, failsWith_settle_iff he, failsWith_setEntry_iff he]
        at hlast
      obtain ⟨executable, limit, haccess, hfails, hpast⟩ |
        ⟨list, h₂, hlisted, hother, executable, limit, haccess, hfails, hpast⟩ := hlast
      · exact .listing haccess hknown hreach hfails hpast
      · exact .edit haccess hknown hreach hlisted hother hfails hpast

theorem failsWith_grant_iff (he : e.Uncaught) :
    FailsWith (access.grant store i path rights) h e ↔ Obstacle access store i path rights h e := by
  refine ⟨obstacle_of_failsWith_grant he, fun hobstacle => ?_⟩
  cases hobstacle with
  | account hpresent hstore hfails =>
      rw [grant, failsWith_bind_iff, failsWith_requireExisting_iff he, failsWith_exists?_iff]
      exact .inl ⟨hpresent, _, _, hstore, hfails⟩
  | hidden hknown hhidden => exact .of_error (grant_of_hidden hknown hhidden)
  | listing haccess hknown hreach hfails hpast =>
      rw [FailsWith, grant_of_reachable hknown hreach]
      exact failsWith_bind_iff.2 (.inl ((failsWith_entries_iff he).2
        ⟨_, _, haccess, hfails, hpast⟩))
  | edit haccess hknown hreach hlisted hother hfails hpast =>
      rw [FailsWith, grant_of_reachable hknown hreach, bind_apply_of_ok hlisted]
      exact (failsWith_settle_iff he).2 ⟨hother, (failsWith_setEntry_iff he).2
        ⟨_, _, haccess, hfails, hpast⟩⟩

/-! ## The turns of a batch -/

/-- A path at its turn: the host on which it is tried, and how a grant there ends. -/
structure Turn where
  path : String
  before : Host
  ended : EStateM.Result Fault Host DirectoryGrant

namespace Turn

/-- The grant that was made. -/
def grant? (turn : Turn) : Option DirectoryGrant :=
  match turn.ended with
  | .ok g _ => some g
  | .error _ _ => none

/-- The refusal that the turn ended in. -/
def refusal? (turn : Turn) : Option Refusal :=
  match turn.ended with
  | .error (.refused r) _ => some r
  | _ => none

/-- The host on which the next turn begins. -/
def after (turn : Turn) : Host :=
  match turn.ended with
  | .ok _ h' => h'
  | .error (.refused r) h' =>
    h'.logged .error .directories ("Directory grant failed for " ++ turn.path ++ ": " ++ r.message)
  | .error _ h' => h'

/-- The turn ended in a fault that is not collected. -/
def StoppedBy (turn : Turn) (e : Fault) : Prop := e.Uncaught ∧ ∃ h', turn.ended = .error e h'

theorem after_of_uncaught {turn : Turn} {e : Fault} {h' : Host} (he : e.Uncaught)
    (hended : turn.ended = .error e h') : turn.after = h' := by
  rw [after, hended]
  cases e with
  | refused r => exact absurd rfl (he r)
  | _ => rfl

end Turn

/-- The turn of a path that begins on a host. -/
def turnOn (access : AccessControl) (store : IdentityStore) (i : Identity) (rights : AccessRights)
    (path : String) (h : Host) : Turn :=
  { path, before := h, ended := access.grant store i path rights h }

/-- The turns of a list of paths, none of which keeps a later one from being tried. -/
def turns (access : AccessControl) (store : IdentityStore) (i : Identity) (rights : AccessRights) :
    List String → Host → List Turn
  | [], _ => []
  | path :: rest, h =>
    turnOn access store i rights path h ::
      turns access store i rights rest (turnOn access store i rights path h).after

/-- The host that turns leave that begin on `h`. -/
def leftBy : List Turn → Host → Host
  | [], h => h
  | turn :: rest, _ => leftBy rest turn.after

/-- What the turns come to together: every path has its grant, or each refusal is reported in one. -/
def together (turns : List Turn) (h : Host) : EStateM.Result Fault Host (List DirectoryGrant) :=
  if (turns.filterMap Turn.refusal?).isEmpty then .ok (turns.filterMap Turn.grant?) (leftBy turns h)
  else .error (.refused (Refusal.ofFailures none (turns.filterMap Turn.refusal?))) (leftBy turns h)

theorem map_path_turns (access : AccessControl) (store : IdentityStore) (i : Identity)
    (rights : AccessRights) (paths : List String) (h : Host) :
    (turns access store i rights paths h).map Turn.path = paths := by
  induction paths generalizing h with
  | nil => rfl
  | cons path rest ih => exact congrArg (path :: ·) (ih _)

theorem ended_of_mem_turns {turn : Turn} (hmem : turn ∈ turns access store i rights paths h) :
    turn.ended = access.grant store i turn.path rights turn.before := by
  induction paths generalizing h with
  | nil => cases hmem
  | cons path rest ih =>
      cases hmem with
      | head => rfl
      | tail _ hrest => exact ih hrest

/-- A turn is stopped by exactly what is in the way. -/
theorem stoppedBy_iff {turn : Turn} (hmem : turn ∈ turns access store i rights paths h) :
    turn.StoppedBy e ↔ e.Uncaught ∧ Obstacle access store i turn.path rights turn.before e := by
  rw [Turn.StoppedBy, ended_of_mem_turns hmem]
  exact and_congr_right fun he => failsWith_grant_iff he

/-- A turn that is not stopped goes on to the others, whether a grant is made or refused. -/
theorem attemptAll_cons_of_going (rest : List String)
    (hgoing : ∀ e, ¬ (turnOn access store i rights path h).StoppedBy e) :
    let turn := turnOn access store i rights path h
    attemptAll access store i rights (path :: rest) h =
      (attemptAll access store i rights rest >>= fun results =>
        pure {
          granted := turn.grant?.toList ++ results.granted
          failures := turn.refusal?.toList ++ results.failures }) turn.after := by
  intro turn
  rw [attemptAll]
  cases hended : access.grant store i path rights h with
  | ok g h' =>
      rw [bind_apply_of_ok (catchRefusal_of_ok hended)]
      simp [turn, turnOn, Turn.after, Turn.grant?, Turn.refusal?, hended]
  | error e h' =>
      obtain he | ⟨r, rfl⟩ := e.uncaught_or_refused
      · exact absurd ⟨he, h', hended⟩ (hgoing e)
      · rw [bind_apply_of_ok (catchRefusal_of_refused hended)]
        simp [turn, turnOn, Turn.after, Turn.grant?, Turn.refusal?, hended, log_bind]

/-- A turn that is stopped ends the batch. -/
theorem attemptAll_cons_of_stopped (rest : List String)
    (hstopped : (turnOn access store i rights path h).StoppedBy e) :
    attemptAll access store i rights (path :: rest) h =
      .error e (turnOn access store i rights path h).after := by
  obtain ⟨he, h', hended⟩ := hstopped
  rw [Turn.after_of_uncaught he hended, attemptAll]
  exact bind_apply_of_error (catchRefusal_of_uncaught he hended) _

/-- As long as no turn is stopped the batch comes to what they come to. -/
theorem attemptAll_of_going
    (hgoing : ∀ turn ∈ turns access store i rights paths h, ∀ e, ¬ turn.StoppedBy e) :
    attemptAll access store i rights paths h =
      .ok { granted := (turns access store i rights paths h).filterMap Turn.grant?
            failures := (turns access store i rights paths h).filterMap Turn.refusal? }
        (leftBy (turns access store i rights paths h) h) := by
  induction paths generalizing h with
  | nil => rfl
  | cons path rest ih =>
      have hrest := ih fun turn hmem => hgoing turn (List.mem_cons_of_mem _ hmem)
      refine (attemptAll_cons_of_going rest (hgoing _ List.mem_cons_self)).trans
        ((bind_apply_of_ok hrest _).trans ?_)
      rw [turns, leftBy, List.filterMap_cons, List.filterMap_cons]
      cases (turnOn access store i rights path h).grant? <;>
        cases (turnOn access store i rights path h).refusal? <;> rfl

/-- The first turn that is stopped ends the batch. -/
theorem attemptAll_of_stopped {before later : List Turn} {turn : Turn}
    (hturns : turns access store i rights paths h = before ++ turn :: later)
    (hgoing : ∀ turn' ∈ before, ∀ e', ¬ turn'.StoppedBy e') (hstopped : turn.StoppedBy e) :
    attemptAll access store i rights paths h = .error e turn.after := by
  induction before generalizing paths h with
  | nil =>
      cases paths with
      | nil => cases hturns
      | cons path rest =>
          cases hturns
          exact attemptAll_cons_of_stopped rest hstopped
  | cons first before ih =>
      cases paths with
      | nil => cases hturns
      | cons path rest =>
          obtain ⟨hfirst, hrest⟩ := List.cons.inj hturns
          subst hfirst
          rw [attemptAll_cons_of_going rest (hgoing _ List.mem_cons_self)]
          exact bind_apply_of_error (ih hrest fun t hmem => hgoing t (List.mem_cons_of_mem _ hmem)) _

/-- Among turns of which one is stopped there is a first such. -/
theorem exists_first_stopped {ts : List Turn} (hstopped : ∃ turn ∈ ts, ∃ e, turn.StoppedBy e) :
    ∃ before turn later e, ts = before ++ turn :: later ∧
      (∀ turn' ∈ before, ∀ e', ¬ turn'.StoppedBy e') ∧ turn.StoppedBy e := by
  induction ts with
  | nil => simp at hstopped
  | cons first rest ih =>
      by_cases hfirst : ∃ e, first.StoppedBy e
      · obtain ⟨e, he⟩ := hfirst
        exact ⟨[], first, rest, e, rfl, by simp, he⟩
      · obtain ⟨turn, hmem, e, he⟩ := hstopped
        have hlater : turn ∈ rest := by
          rcases List.mem_cons.1 hmem with rfl | hlater
          · exact absurd ⟨e, he⟩ hfirst
          · exact hlater
        obtain ⟨before, turn, later, e, rfl, hgoing, he⟩ := ih ⟨turn, hlater, e, he⟩
        refine ⟨first :: before, turn, later, e, rfl, fun turn' hmem e' he' => ?_, he⟩
        rcases List.mem_cons.1 hmem with rfl | hbefore
        · exact hfirst ⟨e', he'⟩
        · exact hgoing turn' hbefore e' he'

/-- What turns come to together is no fault but a refusal. -/
theorem together_ne_error {ts : List Turn} {h h' : Host} (he : e.Uncaught) :
    together ts h ≠ .error e h' := by
  intro hended
  unfold together at hended
  split at hended
  · cases hended
  · cases hended
    exact he _ rfl

/-- **Which failures a batch gets past.**  For an account that exists every path of a batch would
have its turn.  The batch comes to what the turns come to together exactly if none is stopped; the
first one that is stopped ends the batch with its own fault, so no later path is tried and no
earlier refusal is reported.  A turn is stopped by an obstacle, and by nothing else. -/
theorem batch_goes_on_iff (access : AccessControl) (store : IdentityStore) (i i₀ : Identity)
    (rights : AccessRights) (paths : List String) (h h₀ : Host)
    (hknown : store.requireExisting i h = .ok i₀ h₀) :
    let ts := turns access store i rights paths h₀
    ts.map Turn.path = paths ∧
    (grantAll access store i paths rights h = together ts h₀ ↔ ∀ turn ∈ ts, ∀ e, ¬ turn.StoppedBy e) ∧
    (∀ before turn later e, ts = before ++ turn :: later →
      (∀ turn' ∈ before, ∀ e', ¬ turn'.StoppedBy e') → turn.StoppedBy e →
      grantAll access store i paths rights h = .error e turn.after) ∧
    ∀ turn ∈ ts, ∀ e, turn.StoppedBy e ↔
      e.Uncaught ∧ Obstacle access store i turn.path rights turn.before e := by
  intro ts
  have hgoes : (∀ turn ∈ ts, ∀ e, ¬ turn.StoppedBy e) →
      grantAll access store i paths rights h = together ts h₀ := by
    intro hgoing
    rw [grantAll, bind_apply_of_ok hknown, bind_apply_of_ok (attemptAll_of_going hgoing), together]
    split <;> rfl
  have hstops : ∀ before turn later e, ts = before ++ turn :: later →
      (∀ turn' ∈ before, ∀ e', ¬ turn'.StoppedBy e') → turn.StoppedBy e →
      grantAll access store i paths rights h = .error e turn.after := by
    intro before turn later e hturns hgoing hstopped
    rw [grantAll, bind_apply_of_ok hknown]
    exact bind_apply_of_error (attemptAll_of_stopped hturns hgoing hstopped) _
  refine ⟨map_path_turns access store i rights paths h₀, ⟨fun htogether => ?_, hgoes⟩, hstops,
    fun turn hmem e => stoppedBy_iff hmem⟩
  intro turn hmem e hstopped
  -- then there is a first turn that is stopped, and the batch ended in its fault
  obtain ⟨before, turn, later, e, hturns, hgoing, hstopped⟩ :=
    exists_first_stopped ⟨turn, hmem, e, hstopped⟩
  exact together_ne_error hstopped.1 (htogether.symm.trans (hstops _ _ _ _ hturns hgoing hstopped))

/-- The first of two paths may not be looked at, so the second is not tried. -/
theorem batch_goes_on_iff_svc :
    let i : Identity := { name := "svc", present := true, named := by decide }
    let h : Host :=
      { accounts := .ofNames ["svc"] "operator"
        tree := .ofRows [(Path.ofString "/a", { denies := { stat := true } }), (Path.ofString "/b", {})] }
    let ts := turns .table .table i .readWriteCreate ["/a", "/b"] h
    IdentityStore.table.requireExisting i h = .ok i h ∧
      grantAll .table .table i ["/a", "/b"] .readWriteCreate h ≠ together ts h ∧
      FailsWith (grantAll .table .table i ["/a", "/b"] .readWriteCreate) h
        (.system (.about SystemError.accessDenied "/a")) := by
  intro i h ts
  have hknown : IdentityStore.table.requireExisting i h = .ok i h :=
    IdentityStore.requireExisting_of_has rfl (by decide +kernel)
  have hhidden : h.tree.Hidden (Path.ofString "/a") := by decide +kernel
  obtain ⟨-, htogether, hfirst, hstopped⟩ :=
    batch_goes_on_iff .table .table i i .readWriteCreate ["/a", "/b"] h h hknown
  have hstops : (turnOn .table .table i .readWriteCreate "/a" h).StoppedBy
      (.system (.about SystemError.accessDenied "/a")) :=
    (hstopped _ List.mem_cons_self _).2 ⟨nofun, .hidden hknown hhidden⟩
  refine ⟨hknown, fun hall => htogether.1 hall _ List.mem_cons_self _ hstops, ?_⟩
  exact .of_error (hfirst [] _ _ _ rfl (by simp) hstops)

/-- A path on which a grant alone is made is not granted after one that may not be looked at. -/
theorem not_always_goes_on :
    ¬ ∀ (i : Identity) (rights : AccessRights) (h : Host) (paths : List String) (path : String),
      path ∈ paths → (∃ g h', grant .table .table i path rights h = .ok g h' ∧ g.path = path) →
      ((grantAll .table .table i paths rights).hostAfter h).access.entry path i.name = some rights := by
  intro hgranted
  let i : Identity := { name := "svc", present := true, named := by decide }
  let h : Host :=
    { accounts := .ofNames ["svc"] "operator"
      tree := .ofRows [(Path.ofString "/a", { denies := { stat := true } }), (Path.ofString "/b", {})] }
  have halone : ∃ g h', grant .table .table i "/b" .readWriteCreate h = .ok g h' ∧ g.path = "/b" := by
    decide +kernel
  have hleft : ((grantAll .table .table i ["/a", "/b"] .readWriteCreate).hostAfter h).access.entry
      "/b" "svc" = none := by decide +kernel
  have hentry := hgranted i .readWriteCreate h ["/a", "/b"] "/b" (by decide) halone
  cases hleft.symm.trans hentry

end AccessControl

end Provisioning
