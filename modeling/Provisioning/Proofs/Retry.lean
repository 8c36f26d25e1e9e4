/-
# `Provisioning.Proofs.Retry` — the same request until it returns

What a failed run completed is not undone, and the same request run again
picks up where it failed.  Before every attempt grants of privileges may begin
or cease to be refused, and edits of any paths to be denied (`Obstacles`), so
an attempt may stop anywhere.

The invariant is what the request would come to from here if nothing stood in
its way: every stage of an attempt leaves that as it is
(`Stores.agree_goal_of_stage`).  So the attempt that returns leaves what one
undisturbed run of the first host would have left, and from then on there is
nothing to do (`Settled`).
-/
import Provisioning.Proofs.Windows.Run

namespace Provisioning

/-- What stands in the way of a run. -/
structure Obstacles where
  /-- Why grants of privileges are refused, while they are. -/
  failure : Option Fault := none
  /-- The paths whose access lists may not be edited. -/
  denied : List String := []

/-! ## Stores with something in the way -/

namespace Stores

/-- The stores with other obstacles in the way. -/
def obstruct (S : Stores) (w : Obstacles) : Stores :=
  { S with
    rights := { S.rights with failure := w.failure }
    access := { S.access with denied := w.denied } }

/-- What a request comes to when nothing stands in its way. -/
def goal (S : Stores) (request : Request) : Stores := (S.obstruct {}).complete request

/-- The stores hold the same: the accounts with their credentials, the rights and the grants made,
and access lists that read the same. -/
structure Agree (S S' : Stores) : Prop where
  accounts : S.accounts = S'.accounts
  rights : S.rights.rights = S'.rights.rights
  grants : S.rights.grants = S'.rights.grants
  lists : ∀ path, (S.access.lists.get? path).isSome = (S'.access.lists.get? path).isSome
  entries : ∀ path name, S.access.entry path name = S'.access.entry path name

namespace Agree

variable {S S' S'' : Stores}

theorem refl (S : Stores) : S.Agree S := ⟨rfl, rfl, rfl, fun _ => rfl, fun _ _ => rfl⟩

theorem trans (h : S.Agree S') (h' : S'.Agree S'') : S.Agree S'' :=
  ⟨h.accounts.trans h'.accounts, h.rights.trans h'.rights, h.grants.trans h'.grants,
    fun path => (h.lists path).trans (h'.lists path),
    fun path name => (h.entries path name).trans (h'.entries path name)⟩

end Agree

end Stores

/-! ## Doing a stage again -/

variable {request : Request} {sessionUser : String}

theorem AccountTable.ensured_ensured (t : AccountTable) (request : Request) :
    (t.ensured request).ensured request = t.ensured request := by
  unfold ensured
  cases given request.createUser with
  | none => rfl
  | some name =>
      cases request.password with
      | none => rfl
      | some credential => exact withAccount_withAccount t name credential

namespace RightsTable

variable {t t' : RightsTable}

/-- What is granted does not depend on whether grants are refused. -/
theorem withPrivileges_setFailure (t : RightsTable) (name : String) (privileges : PrivilegeSet)
    (failure : Option Fault) :
    ({ t with failure } : RightsTable).withPrivileges name privileges =
      { t.withPrivileges name privileges with failure } := by
  unfold withPrivileges
  split <;> split <;> first | rfl | contradiction

theorem granted_setFailure (t : RightsTable) (request : Request) (sessionUser : String)
    (failure : Option Fault) :
    ({ t with failure } : RightsTable).granted request sessionUser =
      { t.granted request sessionUser with failure } := by
  unfold granted
  split
  · exact withPrivileges_setFailure _ _ _ _
  · rfl

theorem granted_granted (t : RightsTable) (request : Request) (sessionUser : String) :
    (t.granted request sessionUser).granted request sessionUser =
      t.granted request sessionUser := by
  unfold granted
  split
  · exact withPrivileges_of_lacking_isEmpty (lacking_withPrivileges _ _ _)
  · rfl

end RightsTable

namespace AccessTable

variable {t : AccessTable}

theorem offered_of_target {target : String} (h : request.targetName sessionUser = some target)
    (t : AccessTable) :
    t.offered request sessionUser = t.offerAll target request.rights request.directories := by
  rw [offered, h]

theorem offered_of_none (h : request.targetName sessionUser = none) (t : AccessTable) :
    t.offered request sessionUser = t := by
  rw [offered, h]

/-- The path and the account of an entry that a request sets. -/
def Wanted (request : Request) (sessionUser path name : String) : Prop :=
  path ∈ request.directories ∧ request.targetName sessionUser = some name

instance (request : Request) (sessionUser path name : String) :
    Decidable (Wanted request sessionUser path name) := by unfold Wanted; infer_instance

theorem entry_offered (t : AccessTable) (request : Request) (sessionUser path name : String) :
    (t.offered request sessionUser).entry path name =
      if Wanted request sessionUser path name ∧ path ∉ t.denied then some request.rights
      else t.entry path name := by
  obtain htarget | ⟨target, htarget⟩ :=
    Option.eq_none_or_eq_some (request.targetName sessionUser)
  · simp [offered_of_none htarget, Wanted, htarget]
  · rw [offered_of_target htarget, entry_offerAll]
    simp only [Wanted, htarget, Option.some.injEq, and_assoc, eq_comm (a := target)]

theorem isSome_lists_offered (t : AccessTable) (request : Request) (sessionUser path : String) :
    ((t.offered request sessionUser).lists.get? path).isSome = true ↔
      (t.lists.get? path).isSome = true ∨
        (∃ name, Wanted request sessionUser path name) ∧ path ∉ t.denied := by
  obtain htarget | ⟨target, htarget⟩ :=
    Option.eq_none_or_eq_some (request.targetName sessionUser)
  · simp [offered_of_none htarget, Wanted, htarget]
  · rw [offered_of_target htarget, isSome_lists_offerAll]
    simp [Wanted, htarget]

end AccessTable

namespace Stores

variable {S S' : Stores}

/-- The goal is the same from wherever each part is as it was or as the request makes it. -/
theorem agree_goal
    (haccounts : S'.accounts = S.accounts ∨ S'.accounts = S.accounts.ensured request)
    (hrights : S'.rights = S.rights ∨
      S'.rights = S.rights.granted request S.accounts.sessionUser)
    (haccess : S'.access = S.access ∨
      S'.access = S.access.offered request S.accounts.sessionUser) :
    (S'.goal request).Agree (S.goal request) := by
  have hsession : S'.accounts.sessionUser = S.accounts.sessionUser := by
    rcases haccounts with h | h
    · rw [h]
    · rw [h, AccountTable.sessionUser_ensured]
  have hgranted : (S'.goal request).rights = (S.goal request).rights := by
    simp only [goal, complete, withRunner, withTarget, obstruct, hsession,
      RightsTable.granted_setFailure]
    rcases hrights with h | h
    · rw [h]
    · rw [h, RightsTable.granted_granted]
  refine ⟨?_, congrArg RightsTable.rights hgranted, congrArg RightsTable.grants hgranted, ?_, ?_⟩
  · simp only [goal, complete, withRunner, withTarget, obstruct]
    rcases haccounts with h | h
    · rw [h]
    · rw [h, AccountTable.ensured_ensured]
  · intro path
    rw [Bool.eq_iff_iff]
    simp only [goal, complete, withRunner, withTarget, obstruct, hsession,
      AccessTable.isSome_lists_offered]
    rcases haccess with h | h
    · rw [h]
    · rw [h, AccessTable.isSome_lists_offered]
      by_cases hwanted : ∃ name, AccessTable.Wanted request S.accounts.sessionUser path name
      · simp [hwanted]
      · simp [hwanted]
  · intro path name
    simp only [goal, complete, withRunner, withTarget, obstruct, hsession,
      AccessTable.entry_offered]
    rcases haccess with h | h
    · rw [h]
    · rw [h]
      -- an entry that was not set the first time is set now
      by_cases hwanted : AccessTable.Wanted request S.accounts.sessionUser path name
      · simp [hwanted]
      · have hkept := AccessTable.entry_offered S.access request S.accounts.sessionUser path name
        rw [if_neg fun h => hwanted h.1] at hkept ⊢
        rw [if_neg fun h => hwanted h.1]
        exact hkept

/-- Every stage of an attempt leaves the goal as it is. -/
theorem agree_goal_of_stage (hstage : Stage request S S') :
    (S'.goal request).Agree (S.goal request) := by
  cases hstage with
  | accepted => exact agree_goal (.inl rfl) (.inl rfl) (.inl rfl)
  | target => exact agree_goal (.inr rfl) (.inl rfl) (.inl rfl)
  | runner => exact agree_goal (.inr rfl) (.inr rfl) (.inl rfl)
  | complete => exact agree_goal (.inr rfl) (.inr rfl) (.inr rfl)

/-- What is left by an attempt that nothing kept from returning agrees with the goal. -/
theorem agree_complete_goal (ready : Ready request S) :
    (S.complete request).Agree (S.goal request) := by
  -- where an edit is denied the entry is right already
  have hopen : ∀ path name, AccessTable.Wanted request S.accounts.sessionUser path name →
      path ∈ S.access.denied → S.access.entry path name = some request.rights :=
    fun path name hwanted hdenied =>
      (ready.target (List.ne_nil_of_mem hwanted.1) name hwanted.2).allowed path hwanted.1 hdenied
  have hrights : (S.goal request).rights =
      { (S.complete request).rights with failure := none } := RightsTable.granted_setFailure _ _ _ _
  refine ⟨rfl, (congrArg RightsTable.rights hrights).symm,
    (congrArg RightsTable.grants hrights).symm, ?_, ?_⟩
  · intro path
    rw [Bool.eq_iff_iff]
    simp only [goal, complete, withRunner, withTarget, obstruct, AccessTable.isSome_lists_offered]
    constructor
    · rintro (hlist | ⟨hwanted, -⟩)
      · exact .inl hlist
      · exact .inr ⟨hwanted, List.not_mem_nil⟩
    · rintro (hlist | ⟨⟨name, hwanted⟩, -⟩)
      · exact .inl hlist
      · by_cases hdenied : path ∈ S.access.denied
        · exact .inl (AccessTable.isSome_lists_of_entry (hopen path name hwanted hdenied))
        · exact .inr ⟨⟨name, hwanted⟩, hdenied⟩
  · intro path name
    simp only [goal, complete, withRunner, withTarget, obstruct, AccessTable.entry_offered]
    by_cases hwanted : AccessTable.Wanted request S.accounts.sessionUser path name
    · by_cases hdenied : path ∈ S.access.denied
      · simp [hwanted, hdenied, hopen path name hwanted hdenied]
      · simp [hwanted, hdenied]
    · rw [if_neg fun h => hwanted h.1, if_neg fun h => hwanted h.1]
      rfl

end Stores

/-! ## Nothing left to do -/

variable {S S' : Stores}

/-- All that the request asks for is there. -/
structure Settled (request : Request) (S : Stores) : Prop where
  accepted : Accepted request S
  created : S.accounts.ensured request = S.accounts
  named : request.targetName S.accounts.sessionUser ≠ some ""
  runner : request.runnerRequested = true →
    request.runnerName S.accounts.sessionUser ≠ "" ∧
      S.accounts.has (request.runnerName S.accounts.sessionUser) = true ∧
      (runnerLacks request S).isEmpty = true
  target : request.directories ≠ [] → ∀ name,
    request.targetName S.accounts.sessionUser = some name →
      S.accounts.has name = true ∧
        ∀ path ∈ request.directories, S.access.entry path name = some request.rights

namespace Settled

/-- An attempt that nothing kept from returning leaves nothing to do. -/
theorem complete (accepted : Accepted request S) (ready : Ready request S) :
    Settled request (S.complete request) := by
  have hsession : (S.complete request).accounts.sessionUser = S.accounts.sessionUser :=
    AccountTable.sessionUser_ensured _ _
  refine ⟨?_, AccountTable.ensured_ensured _ _, ?_, ?_, ?_⟩
  · exact accepted.of_has rfl fun name hname => AccountTable.has_ensured_of_has hname request
  · rw [hsession]
    exact ready.named
  · intro hrequested
    have hrunner := ready.runner hrequested
    rw [runnerLacks, hsession]
    refine ⟨hrunner.named, hrunner.known, ?_⟩
    have hrights : (S.complete request).rights =
        S.rights.withPrivileges (request.runnerName S.accounts.sessionUser) request.privileges :=
      if_pos hrequested
    rw [hrights]
    exact RightsTable.lacking_withPrivileges _ _ _
  · intro hpaths name hname
    rw [hsession] at hname
    have htarget := ready.target hpaths name hname
    refine ⟨htarget.known, fun path hpath => ?_⟩
    have hentry := AccessTable.entry_offered S.access request S.accounts.sessionUser path name
    by_cases hdenied : path ∈ S.access.denied
    · rw [if_neg fun h => h.2 hdenied] at hentry
      exact hentry.trans (htarget.allowed path hpath hdenied)
    · rwa [if_pos ⟨⟨hpath, hname⟩, hdenied⟩] at hentry

theorem obstruct (settled : Settled request S) (w : Obstacles) :
    Settled request (S.obstruct w) :=
  ⟨settled.accepted.of_has rfl fun _ h => h, settled.created, settled.named, settled.runner,
    settled.target⟩

/-- Nothing keeps an attempt from returning when there is nothing to do. -/
theorem ready (settled : Settled request S) : Ready request S where
  named := settled.named
  runner hrequested := by
    obtain ⟨hnamed, hhas, hlacks⟩ := settled.runner hrequested
    exact ⟨hnamed, AccountTable.has_ensured_of_has hhas request, .inl hlacks⟩
  target hpaths name hname := by
    obtain ⟨hhas, hentries⟩ := settled.target hpaths name hname
    exact ⟨AccountTable.has_ensured_of_has hhas request, fun path hpath _ => hentries path hpath⟩

theorem complete_eq (settled : Settled request S) : S.complete request = S := by
  have hrights : S.rights.granted request S.accounts.sessionUser = S.rights := by
    unfold RightsTable.granted
    split
    · rename_i hrequested
      exact RightsTable.withPrivileges_of_lacking_isEmpty (settled.runner hrequested).2.2
    · rfl
  have haccess : S.access.offered request S.accounts.sessionUser = S.access := by
    by_cases hpaths : request.directories = []
    · exact AccessTable.offered_of_directories_nil hpaths _ _
    · obtain htarget | ⟨target, htarget⟩ :=
        Option.eq_none_or_eq_some (request.targetName S.accounts.sessionUser)
      · exact AccessTable.offered_of_none htarget _
      · rw [AccessTable.offered_of_target htarget]
        exact AccessTable.offerAll_of_entries (settled.target hpaths target htarget).2
  rw [Stores.complete, Stores.withRunner, Stores.withTarget, settled.created, hrights, haccess]

theorem changesOf_eq (settled : Settled request S) :
    Orchestrator.changesOf request S = (false, [], false) := by
  have hcreates : request.creates S.accounts = false := by
    cases hcreates : request.creates S.accounts with
    | false => rfl
    | true =>
        refine absurd ?_ (settled.accepted.withTarget_ne_iff.2 hcreates)
        rw [Stores.withTarget, settled.created]
  rw [Orchestrator.changesOf, hcreates]
  split
  · rename_i hrequested
    rw [PrivilegeSet.isEmpty_iff.1 (settled.runner hrequested).2.2]
    rfl
  · rfl

end Settled

/-! ## Attempts -/

/-- The host with other obstacles in the way. -/
def Host.obstruct (h : Host) (w : Obstacles) : Host :=
  { h with
    rights := { h.rights with failure := w.failure }
    access := { h.access with denied := w.denied } }

/-- The stores lie on the way from others to what a request comes to: nobody is there but by the
request, and the goal is still the same. -/
structure Between (request : Request) (S₀ S : Stores) : Prop where
  tree : S.tree = S₀.tree
  accounts : S.accounts = S₀.accounts ∨
    Accepted request S₀ ∧ S.accounts = S₀.accounts.ensured request
  goal : (S.goal request).Agree (S₀.goal request)

namespace Between

variable {S₀ : Stores}

theorem refl (request : Request) (S₀ : Stores) : Between request S₀ S₀ :=
  ⟨rfl, .inl rfl, .refl _⟩

theorem obstruct (between : Between request S₀ S) (w : Obstacles) :
    Between request S₀ (S.obstruct w) :=
  ⟨between.tree, between.accounts, between.goal⟩

theorem ensured_eq (between : Between request S₀ S) :
    S.accounts.ensured request = S₀.accounts.ensured request := by
  rcases between.accounts with h | ⟨-, h⟩
  · rw [h]
  · rw [h, AccountTable.ensured_ensured]

theorem sessionUser_eq (between : Between request S₀ S) :
    S.accounts.sessionUser = S₀.accounts.sessionUser := by
  rw [← AccountTable.sessionUser_ensured S.accounts request, between.ensured_eq,
    AccountTable.sessionUser_ensured]

/-- A request that is acceptable on the way was so from the beginning. -/
theorem accepted (between : Between request S₀ S) (haccepted : Accepted request S) :
    Accepted request S₀ := by
  rcases between.accounts with h | ⟨accepted, -⟩
  · exact haccepted.of_has between.tree.symm fun name hname => h ▸ hname
  · exact accepted

theorem stage (between : Between request S₀ S) (accepted : Accepted request S)
    (hstage : Stage request S S') : Between request S₀ S' := by
  have hgoal := (Stores.agree_goal_of_stage hstage).trans between.goal
  cases hstage with
  | accepted => exact between
  | target | runner | complete =>
      exact ⟨between.tree, .inr ⟨between.accepted accepted, between.ensured_eq⟩, hgoal⟩

/-- What is ready on the way would have been from the beginning, with nothing in the way. -/
theorem ready (between : Between request S₀ S) (ready : Ready request S) :
    Ready request (S₀.obstruct {}) where
  named := between.sessionUser_eq ▸ ready.named
  runner hrequested := by
    have hrunner := ready.runner hrequested
    have hnamed := hrunner.named
    have hknown := hrunner.known
    rw [between.sessionUser_eq] at hnamed hknown
    rw [between.ensured_eq] at hknown
    exact ⟨hnamed, hknown, .inr rfl⟩
  target hpaths name hname := by
    have hknown := (ready.target hpaths name (between.sessionUser_eq ▸ hname)).known
    rw [between.ensured_eq] at hknown
    exact ⟨hknown, fun path _ hdenied => (nomatch hdenied)⟩

end Between

namespace Orchestrator

open Run

variable {o : Orchestrator}

/-- A run of the request with other obstacles in its way. -/
def attempt (o : Orchestrator) (request : Request) (w : Obstacles) :
    EStateM Fault Session Report :=
  fun s => o.run request { s with host := s.host.obstruct w }

/-- The session after attempts, each with its own obstacles in its way. -/
def attempts (o : Orchestrator) (request : Request) (s : Session) (ws : List Obstacles) : Session :=
  ws.foldl (fun s w => o.sessionAfter request { s with host := s.host.obstruct w }) s

/-- Attempts that fail anywhere stay on the way. -/
theorem between_attempts (htables : o.OnTables) (hkeeps : o.ConfirmKeepsStores request)
    {S₀ : Stores} {s : Session} (between : Between request S₀ s.host.stores)
    (ws : List Obstacles) : Between request S₀ (o.attempts request s ws).host.stores := by
  induction ws generalizing s with
  | nil => exact between
  | cons w ws ih =>
      refine ih ?_
      have hobstructed : Between request S₀ (s.host.obstruct w).stores := between.obstruct w
      obtain hsame | ⟨accepted, hstage⟩ :=
        stage_of_run htables hkeeps { s with host := s.host.obstruct w }
      · rw [hsame]
        exact hobstructed
      · exact hobstructed.stage accepted hstage

/-- An attempt with nothing to do returns, and leaves what it found. -/
theorem attempt_of_settled (htables : o.OnTables) (hconfirms : o.Confirms request) {s : Session}
    (settled : Settled request s.host.stores) (w : Obstacles) :
    ∃ report s', o.attempt request w s = .ok report s' ∧ report.changes = (false, [], false) ∧
      s'.host.stores = s.host.stores.obstruct w := by
  have hobstructed : Settled request (s.host.obstruct w).stores := settled.obstruct w
  obtain ⟨report, s', hrun, hstores, hreport⟩ :=
    run_returns (s := { s with host := s.host.obstruct w }) htables hconfirms
      hobstructed.accepted hobstructed.ready
  exact ⟨report, s', hrun, hreport.trans hobstructed.changesOf_eq,
    hstores.trans hobstructed.complete_eq⟩

/-- Attempts with nothing to do change nothing but what stands in the way. -/
theorem settled_attempts (htables : o.OnTables) (hconfirms : o.Confirms request) {s : Session}
    (settled : Settled request s.host.stores) (ws : List Obstacles) :
    Settled request (o.attempts request s ws).host.stores ∧
      ∀ w, (o.attempts request s ws).host.stores.obstruct w = s.host.stores.obstruct w := by
  induction ws generalizing s with
  | nil => exact ⟨settled, fun _ => rfl⟩
  | cons w ws ih =>
      obtain ⟨report, s', hattempt, -, hstores⟩ := attempt_of_settled htables hconfirms settled w
      have hafter : o.attempts request s (w :: ws) = o.attempts request s' ws := by
        have hnext : o.sessionAfter request { s with host := s.host.obstruct w } = s' := by
          have hrun : o.run request { s with host := s.host.obstruct w } = .ok report s' := hattempt
          rw [sessionAfter, hrun]
        rw [attempts, List.foldl_cons, hnext, attempts]
      obtain ⟨settled', hsame⟩ := ih (s := s') (hstores ▸ settled.obstruct w)
      rw [hafter]
      refine ⟨settled', fun w' => ?_⟩
      rw [hsame, hstores]
      rfl

/-- **Retrying converges.**  When an attempt returns, after any others and with anything in its way,
one run of the first host with nothing in its way returns too and comes to the same; and every later
attempt returns, reports no change, and leaves the stores as they are. -/
theorem retry_converges (htables : o.OnTables) (hconfirms : o.Confirms request) (s : Session)
    (before : List Obstacles) (w : Obstacles) {s' : Session} {report : Report}
    (hreturned : o.attempt request w (o.attempts request s before) = .ok report s') :
    (∃ report₀ s₀, o.attempt request {} s = .ok report₀ s₀ ∧
      s'.host.stores.Agree s₀.host.stores) ∧
    ∀ (after : List Obstacles) (w' : Obstacles), ∃ report' s'',
      o.attempt request w' (o.attempts request s' after) = .ok report' s'' ∧
        report'.created = false ∧ report'.privilegesGranted = [] ∧
        report'.restartRequired = false ∧
        s''.host.stores = s'.host.stores.obstruct w' := by
  have hkeeps := hconfirms.keepsStores
  have between := (between_attempts htables hkeeps (.refl request s.host.stores) before).obstruct w
  obtain ⟨⟨accepted, ready, -⟩, hstores⟩ := complete_of_run htables hkeeps hreturned
  constructor
  · have accepted₀ : Accepted request (s.host.obstruct {}).stores :=
      (between.accepted accepted).of_has rfl fun _ h => h
    obtain ⟨report₀, s₀, hrun₀, hstores₀, -⟩ :=
      run_returns (s := { s with host := s.host.obstruct {} }) htables hconfirms accepted₀
        (between.ready ready)
    refine ⟨report₀, s₀, hrun₀, ?_⟩
    rw [hstores, hstores₀]
    exact (Stores.agree_complete_goal ready).trans between.goal
  · intro after w'
    have settled : Settled request s'.host.stores := hstores ▸ Settled.complete accepted ready
    obtain ⟨settled', hsame⟩ := settled_attempts htables hconfirms settled after
    obtain ⟨report', s'', hattempt, hreport, hstores'⟩ :=
      attempt_of_settled htables hconfirms settled' w'
    simp only [Report.changes, Prod.mk.injEq] at hreport
    exact ⟨report', s'', hattempt, hreport.1, hreport.2.1, hreport.2.2,
      hstores'.trans (hsame w')⟩

/-- A first attempt creates the account and fails at the privileges, a second grants those and fails
at the directory, and the third comes to what one attempt would have come to. -/
theorem retry_converges_carol :
    let s : Session :=
      ⟨{ accounts := .ofNames [] "operator", tree := .ofRows [(Path.ofString "/srv", {})] }, none⟩
    let o : Orchestrator :=
      { capability := .windows .table .table .table, confirmation := some (fixedAnswer true []) }
    let request : Request :=
      { createUser := some "carol", password := some ⟨"pw"⟩, runnerRequested := true,
        directories := ["/srv"] }
    let before : List Obstacles := [{ failure := some (.failed "refused") }, { denied := ["/srv"] }]
    ∃ report s', o.attempt request {} (o.attempts request s before) = .ok report s' ∧
      report.created = false ∧
      ∃ report₀ s₀, o.attempt request {} s = .ok report₀ s₀ ∧
        s'.host.stores.Agree s₀.host.stores := by
  intro s o request before
  have hconfirms : o.Confirms request := by
    refine confirms_of_ask (o := o) rfl ?_ request
    rintro ask ⟨⟩ q h
    exact ⟨h, rfl, rfl⟩
  have hreturns : ((o.attempt request {}).run' (o.attempts request s before)).map Report.created =
      some false := by decide +kernel +zetaReduce
  delta EStateM.run' EStateM.run at hreturns
  cases hreturned : o.attempt request {} (o.attempts request s before) with
  | error e s' =>
      rw [hreturned] at hreturns
      cases hreturns
  | ok report s' =>
      rw [hreturned] at hreturns
      exact ⟨report, s', rfl, Option.some.inj hreturns,
        (retry_converges (o := o) rfl hconfirms s before {} hreturned).1⟩

end Orchestrator

end Provisioning
