/-
# `Provisioning.Proofs.Runner` — who receives the privileges

The runner that a request names is the target of the run when the two names
are the same account, and it is looked up by its own name otherwise.  Which
names are the same account is decided by case folding; the accounts and the
rights are compared in lower case.  Case folding forgets more: `strasse` and
`straße` fold together, and are two accounts.

**Stated here.**  Who holds what after a run that returned, and exactly when
that is what was asked for: the named runner holds the privileges and no other
account has gained any.  It fails for a target that is mistaken for the runner,
unless both held everything before.
-/
import Provisioning.Proofs.Windows.Run

namespace Provisioning

variable {o : Orchestrator} {request : Request} {S : Stores}

/-- The target of a run is taken for the runner of a name, and is another account. -/
def Mistaken (request : Request) (sessionUser name target : String) : Prop :=
  request.targetName sessionUser = some target ∧ sameAccount (some name) (some target) = true ∧
    Text.lower target ≠ Text.lower name

/-- A named runner receives the privileges under its own name, in lower case, unless the target is
mistaken for it and receives them instead. -/
theorem Request.runnerName_cases {name : String} (hname : given request.runner = some name)
    (sessionUser : String) :
    (Text.lower (request.runnerName sessionUser) = Text.lower name ∧
        ∀ target, ¬ Mistaken request sessionUser name target) ∨
      Mistaken request sessionUser name (request.runnerName sessionUser) := by
  obtain ⟨hgiven, -⟩ := given_eq_some_iff.1 hname
  unfold Request.runnerName
  rw [hname]
  cases htarget : request.targetName sessionUser with
  | none =>
      dsimp only
      rw [hgiven]
      refine .inl ⟨rfl, fun target mistaken => ?_⟩
      rw [mistaken.1] at htarget
      exact nomatch htarget
  | some target =>
      dsimp only
      cases hsame : sameAccount (some name) (some target) with
      | false =>
          refine .inl ⟨rfl, fun other mistaken => ?_⟩
          obtain ⟨hother, hsame', -⟩ := mistaken
          rw [htarget] at hother
          cases hother
          rw [hsame] at hsame'
          exact nomatch hsame'
      | true =>
          by_cases hlower : Text.lower target = Text.lower name
          · refine .inl ⟨hlower, fun other mistaken => ?_⟩
            obtain ⟨hother, -, hdiffers⟩ := mistaken
            rw [htarget] at hother
            cases hother
            exact hdiffers hlower
          · exact .inr ⟨htarget, hsame, hlower⟩

namespace Orchestrator

/-- After a run that returned the runner holds the privileges, and everyone else what they held. -/
theorem mem_heldBy_run (htables : o.OnTables) (hkeeps : o.ConfirmKeepsStores request)
    {s s' : Session} {report : Report} (hrun : o.run request s = .ok report s')
    (hrequested : request.runnerRequested = true) (other : String) (p : Privilege) :
    p ∈ s'.host.rights.heldBy other ↔
      p ∈ s.host.rights.heldBy other ∨
        Text.lower other = Text.lower (request.runnerName s.host.accounts.sessionUser) ∧
          p ∈ request.privileges := by
  obtain ⟨-, hS'⟩ := complete_of_run htables hkeeps hrun
  have hrights : s'.host.rights =
      s.host.rights.withPrivileges (request.runnerName s.host.accounts.sessionUser)
        request.privileges := by
    have hcomplete := congrArg Stores.rights hS'
    exact hcomplete.trans (if_pos hrequested)
  rw [hrights]
  exact RightsTable.mem_heldBy_withPrivileges

/-- **Who receives the privileges.**  After a run that returned, the named runner holds them and no
account of another name has gained any, exactly when no target was mistaken for the runner without
both having held everything before. -/
theorem only_runner_receives_iff (htables : o.OnTables) (hkeeps : o.ConfirmKeepsStores request)
    {s s' : Session} {report : Report} (hrun : o.run request s = .ok report s')
    (hrequested : request.runnerRequested = true) {name : String}
    (hname : given request.runner = some name) :
    ((∀ p ∈ request.privileges, p ∈ s'.host.rights.heldBy name) ∧
        ∀ other, Text.lower other ≠ Text.lower name →
          ∀ p ∈ s'.host.rights.heldBy other, p ∈ s.host.rights.heldBy other) ↔
      ∀ target, Mistaken request s.host.accounts.sessionUser name target →
        ∀ p ∈ request.privileges,
          p ∈ s.host.rights.heldBy name ∧ p ∈ s.host.rights.heldBy target := by
  have hheld := mem_heldBy_run htables hkeeps hrun hrequested
  obtain ⟨hlower, hnone⟩ | mistaken :=
    Request.runnerName_cases hname s.host.accounts.sessionUser
  · -- the runner is meant by its own name
    refine ⟨fun _ target mistaken => absurd mistaken (hnone target), fun _ => ⟨?_, ?_⟩⟩
    · intro p hp
      exact (hheld name p).2 (.inr ⟨hlower.symm, hp⟩)
    · intro other hother p hp
      rcases (hheld other p).1 hp with hbefore | ⟨hsame, -⟩
      · exact hbefore
      · exact absurd (hsame.trans hlower) hother
  · -- the target receives what the runner should
    have hdiffers := mistaken.2.2
    constructor
    · rintro ⟨hrunner, hothers⟩ target mistaken' p hp
      have htarget : target = request.runnerName s.host.accounts.sessionUser :=
        Option.some.inj (mistaken'.1.symm.trans mistaken.1)
      refine ⟨?_, ?_⟩
      · rcases (hheld name p).1 (hrunner p hp) with hbefore | ⟨hsame, -⟩
        · exact hbefore
        · exact absurd hsame.symm hdiffers
      · rw [htarget]
        exact hothers _ hdiffers p ((hheld _ p).2 (.inr ⟨rfl, hp⟩))
    · intro hbefore
      refine ⟨fun p hp => (hheld name p).2 (.inl (hbefore _ mistaken p hp).1), ?_⟩
      intro other hother p hp
      rcases (hheld other p).1 hp with hheld' | ⟨hsame, hp'⟩
      · exact hheld'
      · rw [RightsTable.heldBy_congr hsame]
        exact (hbefore _ mistaken p hp').2

/-- The target `straße` is mistaken for the runner `strasse`, and receives the privileges. -/
theorem only_runner_receives_iff_strasse :
    let s : Session := ⟨{ accounts := AccountTable.ofNames ["straße", "strasse"] "operator" }, none⟩
    let o : Orchestrator := { capability := .windows .table .table .table }
    let request : Request :=
      { user := some "straße", runnerRequested := true, runner := some "strasse" }
    ∃ report s', o.run request s = .ok report s' ∧
      ¬ ((∀ p ∈ request.privileges, p ∈ s'.host.rights.heldBy "strasse") ∧
        ∀ other, Text.lower other ≠ Text.lower "strasse" →
          ∀ p ∈ s'.host.rights.heldBy other, p ∈ s.host.rights.heldBy other) := by
  intro s o request
  obtain ⟨report, s', hrun⟩ : ∃ report s', o.run request s = .ok report s' := ⟨_, _, rfl⟩
  refine ⟨report, s', hrun, fun hclaim => ?_⟩
  have hbefore := (only_runner_receives_iff (o := o) rfl (fun _ => rfl) hrun rfl
    (by decide)).1 hclaim "straße" ⟨rfl, by decide, by decide +kernel⟩ .assignPrimaryToken
    (by decide)
  exact absurd hbefore.1 (by decide +kernel)

/-- A named runner need not receive the privileges that it is to have. -/
theorem not_always_runner_receives :
    ¬ ∀ (o : Orchestrator) (request : Request) (s s' : Session) (report : Report) (name : String),
      o.OnTables → o.ConfirmKeepsStores request → request.runnerRequested = true →
      given request.runner = some name → o.run request s = .ok report s' →
      ∀ p ∈ request.privileges, p ∈ s'.host.rights.heldBy name := by
  intro hclaim
  let s : Session := ⟨{ accounts := AccountTable.ofNames ["straße", "strasse"] "operator" }, none⟩
  let o : Orchestrator := { capability := .windows .table .table .table }
  let request : Request :=
    { user := some "straße", runnerRequested := true, runner := some "strasse" }
  have hkeeps : o.ConfirmKeepsStores request := fun _ => rfl
  obtain ⟨report, s', hrun⟩ : ∃ report s', o.run request s = .ok report s' := ⟨_, _, rfl⟩
  have hholds := hclaim o request s s' report "strasse" rfl hkeeps rfl (by decide) hrun
    .assignPrimaryToken (by decide)
  rcases (mem_heldBy_run (o := o) rfl hkeeps hrun rfl "strasse" .assignPrimaryToken).1 hholds with
    hbefore | ⟨hsame, -⟩
  · exact absurd hbefore (by decide +kernel)
  · exact absurd hsame (by decide +kernel)

end Orchestrator

end Provisioning
