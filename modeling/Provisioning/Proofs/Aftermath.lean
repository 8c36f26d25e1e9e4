/-
# `Provisioning.Proofs.Aftermath` — what a run leaves, by how it ends

What a part of a run has done is not undone when a later part fails.  So how a
run ends tells what it leaves in the stores that are kept in memory.

    fails before the runner     nothing is changed
    fails at the runner         the account to be created is there
    fails at the directories    the runner has its privileges as well, and the
                                entries are right on the paths not refused
    returns                     everything is done, and the report tells

Each store tells names apart in its own way: accounts and account rights in
lower case, access lists as texts.  What is said of a store therefore covers
every name (`AccountsGain`, `RightsGain`, `EntriesSet`).

**Stated here.**  A run that returned has left this (`Done`); every run that
failed did so in one of its parts (`FailsIn`), and has left what the part says
(`LeftBy`).
-/
import Provisioning.Proofs.Windows.Run

namespace Provisioning

variable {request : Request} {S S' : Stores}

/-! ## What becomes of the accounts -/

/-- The accounts that a request creates: the one of the name that it gives, unless there is one
already, whatever the case of its letters. -/
def Request.newAccounts (request : Request) (t : AccountTable) : List String :=
  (given request.createUser).toList.filter fun name =>
    ∀ other ∈ t.users.keys, Text.lower other ≠ Text.lower name

/-- The new account is there, with the password of the request, and no other is changed. -/
structure AccountsGain (request : Request) (t t' : AccountTable) : Prop where
  users : ∀ name, t'.users.get? name =
    if name ∈ request.newAccounts t then some request.password else t.users.get? name
  keys : t'.users.keys = t.users.keys ++ request.newAccounts t
  created : t'.created = t.created ++ request.newAccounts t
  sessionUser : t'.sessionUser = t.sessionUser

theorem Request.newAccounts_of_none (hname : given request.createUser = none) (t : AccountTable) :
    request.newAccounts t = [] := by rw [newAccounts, hname]; rfl

theorem Request.newAccounts_of_create {name : String} (hname : given request.createUser = some name)
    (t : AccountTable) : request.newAccounts t = if t.has name then [] else [name] := by
  have hnew : (∀ other ∈ t.users.keys, Text.lower other ≠ Text.lower name) ↔
      ¬ t.has name = true := by simp [AccountTable.has_iff]
  rw [newAccounts, hname]
  by_cases hhas : t.has name = true <;> simp [List.filter, hnew, hhas]

theorem Request.creates_iff (request : Request) (t : AccountTable) :
    request.creates t = true ↔ request.newAccounts t ≠ [] := by
  cases hcreate : given request.createUser with
  | none => simp [creates, newAccounts_of_none hcreate, hcreate]
  | some name =>
      rw [creates, newAccounts_of_create hcreate, hcreate]
      cases hhas : t.has name <;> simp [hhas]

theorem accountsGain_ensured (hoptions : Orchestrator.checkOptions request = .ok ())
    (t : AccountTable) : AccountsGain request t (t.ensured request) := by
  cases hcreate : given request.createUser with
  | none =>
      have hnone := Request.newAccounts_of_none hcreate t
      rw [AccountTable.ensured_of_none hcreate]
      exact ⟨by simp [hnone], by simp [hnone], by simp [hnone], rfl⟩
  | some name =>
      obtain ⟨-, credential, hpassword, -⟩ := Orchestrator.of_checkOptions hoptions hcreate
      have hnew := Request.newAccounts_of_create hcreate t
      rw [AccountTable.ensured_of_create hcreate hpassword]
      cases hhas : t.has name with
      | true =>
          rw [AccountTable.withAccount_of_has hhas]
          simp only [hhas, if_true] at hnew
          exact ⟨by simp [hnew], by simp [hnew], by simp [hnew], rfl⟩
      | false =>
          simp only [hhas, Bool.false_eq_true, if_false] at hnew
          rw [AccountTable.withAccount_of_new hhas]
          refine ⟨fun other => ?_, ?_, congrArg _ hnew.symm, rfl⟩
          · simp only [hnew, hpassword, Table.get?_put, List.mem_singleton, eq_comm]
          · rw [Table.keys_put, AccountTable.contains_of_new hhas, hnew]
            rfl

/-! ## What becomes of the rights -/

/-- The runner has the privileges of the request with what it had, and nobody else any more than
before; what was added is written down. -/
structure RightsGain (request : Request) (runner : Option String) (t t' : RightsTable) :
    Prop where
  held : ∀ name, t'.heldBy name =
    if runner.map Text.lower = some (Text.lower name) then t.heldBy name ∪ request.privileges
    else t.heldBy name
  grants : t'.grants = t.grants ++
    (runner.toList.map fun name => (name, t'.heldBy name \ t.heldBy name)).filter (!·.2.isEmpty)
  failure : t'.failure = t.failure

theorem rightsGain_granted (t : RightsTable) (request : Request) (sessionUser : String) :
    RightsGain request (request.grantee sessionUser) t (t.granted request sessionUser) := by
  unfold RightsTable.granted Request.grantee
  cases request.runnerRequested with
  | false => exact ⟨fun _ => rfl, by simp, rfl⟩
  | true =>
      have hheld := fun name => t.heldBy_withPrivileges (request.runnerName sessionUser) name
        request.privileges
      refine ⟨fun name => (hheld name).trans ?_, ?_, RightsTable.failure_withPrivileges _ _ _⟩
      · simp only [Option.map_some, Option.some.injEq, if_true, eq_comm]
      · simp only [if_true, RightsTable.grants_withPrivileges, hheld, RightsTable.lacking,
          PrivilegeSet.union_sdiff_self, Option.toList_some, List.map_cons, List.map_nil]

/-! ## What becomes of the access lists -/

/-- The target has the rights of the request on the paths, and every other entry is as it was; each
entry that was not right is edited once. -/
structure EntriesSet (request : Request) (target : Option String) (paths : List String)
    (t t' : AccessTable) : Prop where
  entry : ∀ path name, t'.entry path name =
    if path ∈ paths ∧ target = some name then some request.rights else t.entry path name
  listed : ∀ path, (t'.lists.get? path).isSome = true ↔
    (t.lists.get? path).isSome = true ∨ path ∈ paths ∧ target.isSome = true
  edits : ∃ made : List AccessEdit, t'.edits = t.edits ++ made ∧
    (made.map AccessEdit.path).Nodup ∧
    ∀ e, e ∈ made ↔ e.path ∈ paths ∧ target = some e.name ∧ e.rights = request.rights ∧
      t.entry e.path e.name ≠ some request.rights
  denied : t'.denied = t.denied

/-- Without a path or without a target nothing is to be set. -/
theorem entriesSet_refl {target : Option String} {paths : List String}
    (hnone : paths = [] ∨ target = none) (t : AccessTable) :
    EntriesSet request target paths t t := by
  refine ⟨?_, ?_, ⟨[], by simp, List.nodup_nil, ?_⟩, rfl⟩ <;>
    rcases hnone with rfl | rfl <;> simp

/-- An offer sets the entries on the paths that are open. -/
theorem entriesSet_offerAll (t : AccessTable) (request : Request) (name : String)
    (paths : List String) :
    EntriesSet request (some name) (paths.filter (t.Open name request.rights ·)) t
      (t.offerAll name request.rights paths) := by
  refine ⟨fun path name' => ?_, fun path => ?_, ?_, AccessTable.denied_offerAll _ _ _ _⟩
  · rw [AccessTable.entry_offerAll]
    by_cases hname : name' = name
    · subst hname
      by_cases hdenied : path ∈ t.denied
      · by_cases hentry : t.entry path name' = some request.rights <;>
          simp [AccessTable.Open, hdenied, hentry]
      · simp [AccessTable.Open, hdenied]
    · simp [hname, Ne.symm hname]
  · rw [AccessTable.isSome_lists_offerAll]
    by_cases hdenied : path ∈ t.denied
    · -- a denied path that is open has the entry already
      have hlisted : t.entry path name = some request.rights →
          (t.lists.get? path).isSome = true := AccessTable.isSome_lists_of_entry
      simpa [AccessTable.Open, hdenied] using fun _ => hlisted
    · simp [AccessTable.Open, hdenied]
  · obtain ⟨made, hedits, hnodup, hmem⟩ := t.edits_offerAll name request.rights paths
    refine ⟨made.map (⟨·, name, request.rights⟩), hedits, ?_, ?_⟩
    · simpa [Function.comp_def] using hnodup
    · rintro ⟨path, name', rights⟩
      simp only [List.mem_map, hmem, AccessEdit.mk.injEq, List.mem_filter, Option.some.injEq]
      constructor
      · rintro ⟨path, ⟨hpath, hentry, hallowed⟩, rfl, rfl, rfl⟩
        exact ⟨⟨hpath, decide_eq_true fun h => absurd h hallowed⟩, rfl, rfl, hentry⟩
      · rintro ⟨⟨hpath, hopen⟩, rfl, rfl, hentry⟩
        exact ⟨path, ⟨hpath, hentry, fun h => hentry (of_decide_eq_true hopen h)⟩, rfl, rfl, rfl⟩

/-! ## What a run that returned has done -/

/-- What a run that returned has made of the stores, and what its report tells of it. -/
structure Done (request : Request) (S S' : Stores) (R : Report) : Prop where
  /-- The report names the account that the request is about. -/
  target : R.target.map Identity.name = request.targetName S.accounts.sessionUser
  /-- The report names the account that receives privileges, if there is to be one. -/
  runner : R.runner.map Identity.name = request.grantee S.accounts.sessionUser
  accounts : AccountsGain request S.accounts S'.accounts
  created : R.created = true ↔ request.newAccounts S.accounts ≠ []
  rights : RightsGain request (R.runner.map Identity.name) S.rights S'.rights
  privilegesGranted : ∀ p, p ∈ R.privilegesGranted ↔
    ∃ runner, R.runner = some runner ∧ p ∈ S'.rights.heldBy runner.name ∧
      p ∉ S.rights.heldBy runner.name
  sorted : R.privilegesGranted.Pairwise fun p q => p.constant < q.constant
  restartRequired : R.restartRequired = true ↔ R.privilegesGranted ≠ []
  access : EntriesSet request (R.target.map Identity.name) request.directories S.access S'.access
  directoriesGranted : R.directoriesGranted = request.directories
  /-- Nothing else is changed. -/
  rest : S' = { S with accounts := S'.accounts, rights := S'.rights, access := S'.access }

theorem entriesSet_complete (ready : Ready request S) :
    EntriesSet request (request.targetName S.accounts.sessionUser) request.directories S.access
      (S.complete request).access := by
  cases htarget : request.targetName S.accounts.sessionUser with
  | none =>
      have hsame : (S.complete request).access = S.access := by
        rw [Stores.complete, AccessTable.offered, htarget]
      rw [hsame]
      exact entriesSet_refl (.inr rfl) S.access
  | some name =>
      have hoffered : (S.complete request).access =
          S.access.offerAll name request.rights request.directories := by
        rw [Stores.complete, AccessTable.offered, htarget]
      have hopen : request.directories.filter (S.access.Open name request.rights ·) =
          request.directories := by
        refine List.filter_eq_self.2 fun path hpath => decide_eq_true ?_
        exact (ready.target (List.ne_nil_of_mem hpath) name htarget).allowed path hpath
      have hset := entriesSet_offerAll S.access request name request.directories
      rwa [hopen, ← hoffered] at hset

/-- What the runner is told to have gained is what it lacked, if there was one. -/
theorem Report.Tells.eq_toList {R : Report} (htells : R.Tells request S) :
    R.created = request.creates S.accounts ∧ ∃ added : PrivilegeSet,
      R.privilegesGranted = added.toList ∧ R.restartRequired = !added.isEmpty ∧
      added = if request.runnerRequested then runnerLacks request S else {} := by
  have hchanges := htells.changes
  simp only [Report.changes, Orchestrator.changesOf, Prod.mk.injEq] at hchanges
  refine ⟨hchanges.1, ?_⟩
  cases hrequested : request.runnerRequested with
  | false =>
      rw [hrequested] at hchanges
      obtain ⟨hgranted, hrestart⟩ := Prod.mk.inj hchanges.2
      exact ⟨{}, hgranted, hrestart, rfl⟩
  | true =>
      rw [hrequested] at hchanges
      obtain ⟨hgranted, hrestart⟩ := Prod.mk.inj hchanges.2
      exact ⟨runnerLacks request S, hgranted, hrestart, rfl⟩

/-- It has gained that. -/
theorem mem_privilegesGranted {R : Report} (htells : R.Tells request S) (p : Privilege) :
    p ∈ R.privilegesGranted ↔ ∃ runner, R.runner = some runner ∧
      p ∈ (S.complete request).rights.heldBy runner.name ∧ p ∉ S.rights.heldBy runner.name := by
  obtain ⟨-, added, hgranted, -, hadded⟩ := htells.eq_toList
  have hgain := rightsGain_granted S.rights request S.accounts.sessionUser
  have hrunner := htells.runner
  rw [hgranted, PrivilegeSet.mem_toList, hadded]
  unfold Request.grantee at hgain hrunner
  cases hrequested : request.runnerRequested with
  | false =>
      rw [hrequested] at hrunner
      simp [Option.map_eq_none_iff.1 hrunner]
  | true =>
      rw [hrequested] at hgain hrunner
      obtain ⟨runner, hR, hname⟩ := Option.map_eq_some_iff.1 hrunner
      have hheld : (S.complete request).rights.heldBy runner.name =
          S.rights.heldBy runner.name ∪ request.privileges := by
        refine (hgain.held runner.name).trans (if_pos ?_)
        rw [hname]
        rfl
      simp only [if_true, hR, Option.some.injEq, exists_eq_left', hheld, runnerLacks, ← hname,
        RightsTable.lacking, PrivilegeSet.mem_sdiff, PrivilegeSet.mem_union]
      by_cases hbefore : p ∈ S.rights.heldBy runner.name <;> simp [hbefore]

theorem done_complete (accepted : Accepted request S) (ready : Ready request S) {R : Report}
    (htells : R.Tells request S) : Done request S (S.complete request) R := by
  obtain ⟨hcreated, added, hgranted, hrestart, -⟩ := htells.eq_toList
  exact
    { target := htells.target
      runner := htells.runner
      accounts := accountsGain_ensured accepted.options _
      created := by rw [hcreated, Request.creates_iff]
      rights := htells.runner ▸ rightsGain_granted _ _ _
      privilegesGranted := mem_privilegesGranted htells
      sorted := hgranted ▸ added.pairwise_toList
      restartRequired := by simp [hrestart, hgranted, PrivilegeSet.toList_eq_nil_iff]
      access := htells.target ▸ entriesSet_complete ready
      directoriesGranted := htells.directories
      rest := rfl }

/-! ## What a run that failed has left -/

/-- The failure is that of grants on some directories. -/
def Fault.isGrantFailures : Fault → Bool
  | .refused r => r.kind == .directoryGrantFailures
  | _ => false

theorem SecurityPolicy.isGrantFailures_grantFault {name : String} {f : Fault}
    (hf : f.isGrantFailures = false) : (grantFault name f).isGrantFailures = false := by
  cases f with
  | system e => rfl
  | _ => exact hf

/-- What a run has left that failed at the directories: all that came before them, and, when some of
them were refused, the entries on the others. -/
structure DirectoriesLeft (request : Request) (S : Stores) (e : Fault) (S' : Stores) : Prop where
  accounts : AccountsGain request S.accounts S'.accounts
  rights : RightsGain request (request.grantee S.accounts.sessionUser) S.rights S'.rights
  granted : e.isGrantFailures = true → ∃ name failed,
    request.targetName S.accounts.sessionUser = some name ∧
    (∀ path, path ∈ failed ↔ path ∈ request.directories ∧ path ∈ S.access.denied ∧
      S.access.entry path name ≠ some request.rights) ∧
    e = .refused (AccessControl.denials failed) ∧
    EntriesSet request (some name) (request.directories.filter (· ∉ failed)) S.access S'.access
  ungranted : e.isGrantFailures = false → S'.access = S.access
  rest : S' = { S with accounts := S'.accounts, rights := S'.rights, access := S'.access }

/-- What a run has left that failed in a part of it. -/
def LeftBy (request : Request) (S : Stores) (e : Fault) (S' : Stores) : Phase → Prop
  | .consent | .target => S' = S
  | .runner =>
    AccountsGain request S.accounts S'.accounts ∧ S' = { S with accounts := S'.accounts }
  | .directories => DirectoriesLeft request S e S'

theorem Stopped.leftBy {phase : Phase} {e : Fault} (hstopped : Stopped request S phase e S')
    (accepted : Accepted request S) : LeftBy request S e S' phase := by
  have haccounts := accountsGain_ensured accepted.options S.accounts
  have hrights := rightsGain_granted S.rights request S.accounts.sessionUser
  cases hstopped with
  | targetUnnamed hempty => rfl
  | runnerUnnamed | runnerUnknown | runnerMissing | grantRefused => exact ⟨haccounts, rfl⟩
  | targetMissing hrunner hpaths hname hnew =>
      exact ⟨haccounts, hrights, fun h => (nomatch h), fun _ => rfl, rfl⟩
  | @pathClosed name hrunner hpaths hname hclosed =>
      refine ⟨haccounts, hrights, fun _ => ⟨name, _, hname, fun path => ?_, rfl, ?_⟩,
        fun h => (nomatch h), rfl⟩
      · simp [AccessTable.mem_closed, AccessTable.Open]
      · have hoffered : (S.complete request).access =
            S.access.offerAll name request.rights request.directories := by
          rw [Stores.complete, AccessTable.offered, hname]
        have hopen : request.directories.filter
            (· ∉ S.access.closed name request.rights request.directories) =
              request.directories.filter (S.access.Open name request.rights ·) :=
          List.filter_congr fun path hpath => by simp [AccessTable.mem_closed, hpath]
        rw [hopen, hoffered]
        exact entriesSet_offerAll _ _ _ _

namespace Orchestrator

open Run

variable {o : Orchestrator}

/-- The run of a request fails in a part of it, on a host: the parts before it were done. -/
inductive FailsIn (o : Orchestrator) (request : Request) (s : Session) (e : Fault) :
    Phase → Host → Prop where
  | consent {h : Host}
      (hended : (do o.validate request; o.confirm request : Run Unit) s.host = .error e h) :
      FailsIn o request s e .consent h
  | target {h : Host} {p : Progress} (hbegins : o.Begins request s h)
      (htarget : o.resolveTarget request ⟨h, { platform := o.capability.name }⟩ = .error e p) :
      FailsIn o request s e .target p.host
  | runner {h : Host} {target : Option Identity} {p p' : Progress}
      (hbegins : o.Begins request s h)
      (htarget : o.resolveTarget request ⟨h, { platform := o.capability.name }⟩ = .ok target p)
      (hrunner : runnerStep request target p = .error e p') :
      FailsIn o request s e .runner p'.host
  | directories {h : Host} {target : Option Identity} {p p' p'' : Progress}
      (hbegins : o.Begins request s h)
      (htarget : o.resolveTarget request ⟨h, { platform := o.capability.name }⟩ = .ok target p)
      (hrunner : runnerStep request target p = .ok () p')
      (hdirectories : directoriesStep request target p' = .error e p'') :
      FailsIn o request s e .directories p''.host

/-- A run that fails in a part fails with that. -/
theorem FailsIn.run_eq (htables : o.OnTables) {s : Session} {e : Fault} {phase : Phase} {h : Host}
    (hfails : FailsIn o request s e phase h) :
    ∃ s', o.run request s = .error e s' ∧ s'.host = h := by
  cases hfails with
  | consent hended => exact ⟨⟨h, s.report⟩, by rw [run, hended], rfl⟩
  | @target h p hbegins htarget =>
      refine ⟨⟨p.host, some p.report⟩, ?_, rfl⟩
      rw [run_eq_of_begins hbegins, apply_eq htables, bind_eq_of_error htarget]
  | @runner h target p p' hbegins htarget hrunner =>
      refine ⟨⟨p'.host, some p'.report⟩, ?_, rfl⟩
      rw [run_eq_of_begins hbegins, apply_eq htables, bind_eq_of_ok htarget,
        bind_eq_of_error hrunner]
  | @directories h target p p' p'' hbegins htarget hrunner hdirectories =>
      refine ⟨⟨p''.host, some p''.report⟩, ?_, rfl⟩
      rw [run_eq_of_begins hbegins, apply_eq htables, bind_eq_of_ok htarget, bind_eq_of_ok hrunner,
        bind_eq_of_error hdirectories]

/-- A run that fails does so in one of its parts. -/
theorem exists_failsIn (htables : o.OnTables) {s s' : Session} {e : Fault}
    (hrun : o.run request s = .error e s') : ∃ phase, FailsIn o request s e phase s'.host := by
  cases hended : (do o.validate request; o.confirm request : Run Unit) s.host with
  | error e' h =>
      rw [run, hended] at hrun
      cases hrun
      exact ⟨_, .consent hended⟩
  | ok u h =>
      rw [run_eq_of_begins hended, apply_eq htables] at hrun
      cases htarget : o.resolveTarget request ⟨h, { platform := o.capability.name }⟩ with
      | error e' p =>
          rw [bind_eq_of_error htarget] at hrun
          cases hrun
          exact ⟨_, .target hended htarget⟩
      | ok target p =>
          rw [bind_eq_of_ok htarget] at hrun
          cases hrunner : runnerStep request target p with
          | error e' p' =>
              rw [bind_eq_of_error hrunner] at hrun
              cases hrun
              exact ⟨_, .runner hended htarget hrunner⟩
          | ok u' p' =>
              rw [bind_eq_of_ok hrunner] at hrun
              cases hdirectories : directoriesStep request target p' with
              | error e' p'' =>
                  rw [bind_eq_of_error hdirectories] at hrun
                  cases hrun
                  exact ⟨_, .directories hended htarget hrunner hdirectories⟩
              | ok u'' p'' =>
                  rw [bind_eq_of_ok hdirectories] at hrun
                  cases hrun

/-- A step that stops the run has failed only for a reason to stop. -/
theorem Stops.stopped {act : Step Unit} {phase : Phase} {S₀ : Stores} {R : Report}
    (hstops : Stops act request S phase S₀ R) {p p' : Progress} {e : Fault}
    (hseen : p.seen = (S₀, R)) (hact : act p = .error e p') :
    Stopped request S phase e p'.host.stores := by
  obtain ⟨P, S', R', hfails, hstopped⟩ := hstops
  obtain ⟨he, hseen'⟩ := hfails.of_error hseen hact
  obtain ⟨hS', -⟩ := Prod.mk.inj hseen'
  exact hS' ▸ hstopped e he

/-- The target that was resolved is the one that the request is about. -/
theorem resolved_of_ok (htables : o.OnTables) (accepted : Accepted request S) {h : Host}
    (hS : h.stores = S) {target : Option Identity} {p : Progress}
    (htarget : o.resolveTarget request ⟨h, { platform := o.capability.name }⟩ = .ok target p) :
    target.map Identity.name = request.targetName S.accounts.sessionUser ∧
      (∀ t, target = some t → t.present = true) ∧
      p.seen = (S.withTarget request, .ofTarget o.capability.name request S target) := by
  have hseen : Progress.seen ⟨h, { platform := o.capability.name }⟩ =
      (S, { platform := o.capability.name }) := by rw [← hS]; rfl
  by_cases hempty : request.targetName S.accounts.sessionUser = some ""
  · exact absurd htarget ((fails_resolveTarget htables hempty).ne_ok hseen)
  · obtain ⟨target', hname, hpresent, hgives⟩ :=
      gives_resolveTarget htables accepted o.capability.name hempty
    obtain ⟨rfl, hseen'⟩ := hgives.of_ok hseen htarget
    exact ⟨hname, hpresent, hseen'⟩

/-- A run that fails in a part after the first was accepted, and has a reason to stop there. -/
theorem FailsIn.stopped (htables : o.OnTables) (hkeeps : o.ConfirmKeepsStores request)
    {s : Session} {e : Fault} {phase : Phase} {h : Host} (hfails : FailsIn o request s e phase h)
    (hphase : phase ≠ .consent) :
    Accepted request s.host.stores ∧ Stopped request s.host.stores phase e h.stores := by
  cases hfails with
  | consent hended => exact absurd rfl hphase
  | @target h p hbegins htarget =>
      obtain ⟨hS, accepted⟩ := of_begins htables hkeeps hbegins
      have hseen : Progress.seen ⟨h, { platform := o.capability.name }⟩ =
          (s.host.stores, { platform := o.capability.name }) := by rw [← hS]; rfl
      refine ⟨accepted, ?_⟩
      by_cases hempty : request.targetName s.host.stores.accounts.sessionUser = some ""
      · obtain ⟨rfl, hseen'⟩ := (fails_resolveTarget htables hempty).of_error hseen htarget
        obtain ⟨hS', -⟩ := Prod.mk.inj hseen'
        rw [hS']
        exact .targetUnnamed hempty
      · obtain ⟨target, -, -, hgives⟩ :=
          gives_resolveTarget htables accepted o.capability.name hempty
        exact absurd htarget (hgives.ne_error hseen)
  | @runner h target p p' hbegins htarget hrunner =>
      obtain ⟨hS, accepted⟩ := of_begins htables hkeeps hbegins
      obtain ⟨hname, hpresent, hseen⟩ := resolved_of_ok htables accepted hS htarget
      obtain ⟨-, R, -, -, hgives⟩ | hstops :=
        runner_outcome accepted o.capability.name hname hpresent
      · exact absurd hrunner (hgives.ne_error hseen)
      · exact ⟨accepted, hstops.stopped hseen hrunner⟩
  | @directories h target p p' p'' hbegins htarget hrunner hdirectories =>
      obtain ⟨hS, accepted⟩ := of_begins htables hkeeps hbegins
      obtain ⟨hname, hpresent, hseen⟩ := resolved_of_ok htables accepted hS htarget
      obtain ⟨hready, R, hR, -, hgives⟩ | ⟨_, _, _, hstops, -⟩ :=
        runner_outcome accepted o.capability.name hname hpresent
      · obtain ⟨-, hseen'⟩ := hgives.of_ok hseen hrunner
        obtain ⟨-, hgives'⟩ | hstops := directories_outcome accepted hready hR hname hpresent
        · exact absurd hdirectories (hgives'.ne_error hseen')
        · exact ⟨accepted, hstops.stopped hseen' hdirectories⟩
      · exact absurd hrunner (hstops.ne_ok hseen)

/-- A run that fails in a part leaves what the part says. -/
theorem FailsIn.leftBy (htables : o.OnTables) (hkeeps : o.ConfirmKeepsStores request)
    {s : Session} {e : Fault} {phase : Phase} {h : Host} (hfails : FailsIn o request s e phase h) :
    LeftBy request s.host.stores e h.stores phase := by
  by_cases hphase : phase = .consent
  · subst hphase
    cases hfails with
    | consent hended => exact (stores_eq_of_ended htables hkeeps s).2 e h hended
  · obtain ⟨accepted, hstopped⟩ := hfails.stopped htables hkeeps hphase
    exact hstopped.leftBy accepted

/-! ### Who refuses directories -/

theorem raises_resolve (name : Option String) :
    Raises (fun e => e.isGrantFailures = false) (IdentityStore.resolve .table name) := by
  have hmake : ∀ name present source credential,
      Raises (fun e => e.isGrantFailures = false)
        (Run.ofExcept (Identity.make? name present source credential)) := by
    refine fun name present source credential => raises_ofExcept fun e he => ?_
    unfold Identity.make? at he
    split at he
    · cases he
      rfl
    · exact nomatch he
  cases name with
  | none =>
      exact (raises_get.bind fun _ => raises_pure _).bind fun _ =>
        (raises_note _).bind fun _ => hmake _ _ _ _
  | some name =>
      exact (raises_get.bind fun _ => raises_pure _).bind fun _ =>
        Raises.ite (hmake _ _ _ _) (raises_throw rfl)

theorem raises_missingDirectories : ∀ paths : List String,
    Raises (fun e => e.isGrantFailures = false) (missingDirectories paths)
  | [] => raises_pure _
  | path :: rest =>
      ((raises_entryAt (fun _ => rfl) (Path.ofString path)).bind fun _ => raises_pure _).bind
        fun _ => (raises_missingDirectories rest).bind fun _ => raises_pure _

theorem isGrantFailures_of_checkOptions {e : Fault} (hoptions : checkOptions request = .error e) :
    e.isGrantFailures = false := by
  unfold checkOptions at hoptions
  split at hoptions
  · split at hoptions
    · cases hoptions
      rfl
    · split at hoptions
      · cases hoptions
        rfl
      · exact nomatch hoptions
  · exact nomatch hoptions
  · split at hoptions
    · exact nomatch hoptions
    · cases hoptions
      rfl

/-- Validation refuses no directories. -/
theorem raises_validate (htables : o.OnTables) (request : Request) :
    Raises (fun e => e.isGrantFailures = false) (o.validate request) := by
  have hcapability : Raises (fun e => e.isGrantFailures = false)
      ((Capability.windows .table .table .table).validate request) := by
    unfold Capability.validate
    dsimp only
    cases given request.runner with
    | none => exact raises_pure _
    | some runner =>
        exact Raises.ite (raises_pure _) ((raises_resolve _).bind fun _ => raises_pure _)
  refine (raises_ofExcept fun _ => isGrantFailures_of_checkOptions).bind fun _ =>
    (raises_missingDirectories request.directories).bind fun missing => ?_
  -- whether or not directories are missing, the names are looked up next
  refine Raises.ite (Raises.bind (raises_throw rfl) fun _ => ?_) ?_ <;>
  · rw [htables]
    cases given request.user with
    | none => exact hcapability
    | some user => exact (raises_resolve _).bind fun _ => hcapability

/-- Nobody but the access lists is set to fail as grants on directories do. -/
structure OnlyPathsRefused (o : Orchestrator) (t : RightsTable) : Prop where
  policy : ∀ f, t.failure = some f → f.isGrantFailures = false
  asked : ∀ ask q h e h', o.confirmation = some ask → ask q h = .error e h' →
    e.isGrantFailures = false

/-- Then a failure of grants on directories is one of the last part. -/
theorem FailsIn.phase_eq_directories (htables : o.OnTables) (hkeeps : o.ConfirmKeepsStores request)
    {s : Session} (honly : OnlyPathsRefused o s.host.rights) {e : Fault} {phase : Phase} {h : Host}
    (hfails : FailsIn o request s e phase h) (he : e.isGrantFailures = true) :
    phase = .directories := by
  by_cases hphase : phase = .consent
  · subst hphase
    have hother : e.isGrantFailures = false := by
      cases hfails with
      | consent hended =>
          cases hvalidate : o.validate request s.host with
          | error e' h' =>
              rw [bind_apply_of_error hvalidate] at hended
              cases hended
              exact raises_validate htables request _ _ _ hvalidate
          | ok u h' =>
              rw [bind_apply_of_ok hvalidate] at hended
              obtain rfl | ⟨ask, q, h₁, hask, hfailed⟩ := of_confirm_error htables hended
              · rfl
              · exact honly.asked ask q h₁ e h hask hfailed
    rw [he] at hother
    exact nomatch hother
  · obtain ⟨-, hstopped⟩ := hfails.stopped htables hkeeps hphase
    generalize h.stores = S' at hstopped
    cases hstopped with
    | targetUnnamed | runnerUnnamed | runnerUnknown | runnerMissing => exact nomatch he
    | @grantRefused f hrequested hnamed hlacking hfailure =>
        rw [SecurityPolicy.isGrantFailures_grantFault (honly.policy f hfailure)] at he
        exact nomatch he
    | targetMissing | pathClosed => rfl

/-- The session keeps the report of a run that returned. -/
theorem report_of_run {s s' : Session} {report : Report}
    (hrun : o.run request s = .ok report s') : s'.report = some report := by
  unfold run at hrun
  split at hrun
  · exact nomatch hrun
  · split at hrun
    · exact nomatch hrun
    · cases hrun
      rfl

/-- **What a run leaves.**  A run that returned has done everything that the request asks for, and
nothing else, and its report tells.  A run that failed did so in one of its parts, and has left what
the parts before it did: nothing before the runner, the new account at the runner, and that with the
privileges at the directories, where a failure of some grants has made all the others. -/
theorem run_leaves (htables : o.OnTables) (hkeeps : o.ConfirmKeepsStores request) (s : Session) :
    (∀ report s', o.run request s = .ok report s' →
      s'.report = some report ∧ Done request s.host.stores s'.host.stores report) ∧
    (∀ e s', o.run request s = .error e s' → ∃ phase, FailsIn o request s e phase s'.host) ∧
    ∀ e phase h, FailsIn o request s e phase h →
      (∃ s', o.run request s = .error e s' ∧ s'.host = h) ∧
      LeftBy request s.host.stores e h.stores phase ∧
      (OnlyPathsRefused o s.host.rights → e.isGrantFailures = true → phase = .directories) := by
  refine ⟨fun report s' hrun => ⟨report_of_run hrun, ?_⟩, fun e s' => exists_failsIn htables,
    fun e phase h hfails => ⟨hfails.run_eq htables, hfails.leftBy htables hkeeps,
      fun honly he => hfails.phase_eq_directories htables hkeeps honly he⟩⟩
  obtain ⟨⟨accepted, ready, htells⟩, hS'⟩ := complete_of_run htables hkeeps hrun
  exact hS' ▸ done_complete accepted ready htells

/-- The new account is also the runner, in capital letters, and has been denied a directory on which
its entry is right already. -/
theorem run_leaves_carol :
    let access : AccessTable := { denied := ["/srv"] }
    let s : Session :=
      ⟨{ accounts := .ofNames [] "operator"
         access := access.withEntry "/srv" "carol" .readWriteCreate
         tree := .ofRows [(Path.ofString "/srv", {}), (Path.ofString "/data", {})] }, none⟩
    let o : Orchestrator :=
      { capability := .windows .table .table .table, confirmation := some (fixedAnswer true []) }
    let request : Request :=
      { createUser := some "carol", password := some ⟨"pw"⟩, runnerRequested := true,
        runner := some "CAROL", directories := ["/srv", "/data", "/srv"] }
    ∃ report s', o.run request s = .ok report s' ∧
      Done request s.host.stores s'.host.stores report := by
  intro access s o request
  have hkeeps : o.AskKeepsStores := by
    rintro ask ⟨⟩ q h
    exact stores_fixedAnswer true q h
  obtain ⟨report, s', hrun⟩ : ∃ report s', o.run request s = .ok report s' := ⟨_, _, rfl⟩
  exact ⟨report, s', hrun, ((run_leaves (o := o) rfl
    (confirmKeepsStores_of_ask (o := o) rfl hkeeps request) s).1 report s' hrun).2⟩

end Orchestrator

end Provisioning
