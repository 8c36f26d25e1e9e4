/-
# `Provisioning.Proofs.Directory.Granted` — the grants that were made

A batch of grants may fail after some of its paths were granted, and then
nothing says which: its refusal lists the others.  Here the grants that were
made are collected along the attempts, one for each attempt that ended in a
value (`grantsOn`), and so for a batch (`grantsOfAll`) and for a whole run
(`Orchestrator.grantsFrom`).

    refused      the access lists are as they were
    granted      one entry is set, or was right already

**Stated here.**  What the access lists are after any grants: each entry is
what the last grant on its path and for its name gave, compared as texts, or
what it was (`AccessTable.AfterGrants`).  A batch that returned lists the grants
it made (`AccessControl.eq_grantsOfAll_of_ok`).
-/
import Provisioning.Proofs.Windows.Run

namespace Provisioning

open Run

/-! ## What is left of grants -/

/-- The rights that the last grant of a list on a path, for exactly a name, gave. -/
def latest (gs : List DirectoryGrant) (path name : String) : Option AccessRights :=
  (gs.filter fun g => g.path = path ∧ g.identity.name = name).getLast?.map DirectoryGrant.rights

theorem latest_append (gs gs' : List DirectoryGrant) (path name : String) :
    latest (gs ++ gs') path name = (latest gs' path name).or (latest gs path name) := by
  rw [latest, List.filter_append, List.getLast?_append, Option.map_or]
  rfl

theorem latest_singleton (g : DirectoryGrant) (path name : String) :
    latest [g] path name =
      if path = g.path ∧ name = g.identity.name then some g.rights else none := by
  unfold latest
  by_cases hg : g.path = path ∧ g.identity.name = name
  · obtain ⟨rfl, rfl⟩ := hg
    simp
  · have hg' : ¬ (path = g.path ∧ name = g.identity.name) := fun h => hg ⟨h.1.symm, h.2.symm⟩
    rw [if_neg hg', List.filter_cons_of_neg (by simpa using hg)]
    rfl

namespace AccessTable

/-- `t'` is left of `t` by grants: each entry is what the last of them gave, or what it was. -/
def AfterGrants (t : AccessTable) (gs : List DirectoryGrant) (t' : AccessTable) : Prop :=
  ∀ path name, t'.entry path name = (latest gs path name).or (t.entry path name)

variable {t t' t'' : AccessTable} {gs gs' : List DirectoryGrant}

theorem entry_eq_of_lists_eq (hlists : t'.lists = t.lists) (path name : String) :
    t'.entry path name = t.entry path name := by rw [entry, entries, hlists]; rfl

theorem afterGrants_nil (hlists : t'.lists = t.lists) : t.AfterGrants [] t' :=
  entry_eq_of_lists_eq hlists

theorem AfterGrants.append (hfirst : t.AfterGrants gs t') (hsecond : t'.AfterGrants gs' t'') :
    t.AfterGrants (gs ++ gs') t'' := by
  intro path name
  rw [hsecond, hfirst, latest_append, Option.or_assoc]

end AccessTable

/-! ## One grant after another -/

namespace AccessControl

variable {i : Identity} {path : String} {rights : AccessRights} {h : Host}

/-- How a grant in the table ends, when it begins on the host `h`. -/
inductive GrantEnds (i : Identity) (path : String) (rights : AccessRights) (h : Host) :
    EStateM.Result Fault Host DirectoryGrant → Prop where
  /-- The account is unknown, nothing is at the path, or edits of it are denied. -/
  | refused {e : Fault} {h' : Host} (hsame : h'.access = h.access) :
      GrantEnds i path rights h (.error e h')
  /-- The entry was right already, or was set. -/
  | granted {h' : Host}
      (hafter : h.access.AfterGrants [{ identity := i, path, rights }] h'.access) :
      GrantEnds i path rights h (.ok { identity := i, path, rights } h')

theorem afterGrants_withEntry (t : AccessTable) (i : Identity) (path : String)
    (rights : AccessRights) {t' : AccessTable}
    (hlists : t'.lists = (t.withEntry path i.name rights).lists) :
    t.AfterGrants [{ identity := i, path, rights }] t' := by
  intro path' name
  rw [AccessTable.entry_eq_of_lists_eq hlists, latest_singleton, AccessTable.entry,
    AccessTable.get?_entries_withEntry]
  by_cases hentry : path = path' ∧ i.name = name
  · obtain ⟨rfl, rfl⟩ := hentry
    simp
  · have hother : ¬ (path' = path ∧ name = i.name) := fun h => hentry ⟨h.1.symm, h.2.symm⟩
    rw [if_neg hentry, if_neg hother]
    rfl

theorem afterGrants_of_right {t : AccessTable} (hright : t.entry path i.name = some rights) :
    t.AfterGrants [{ identity := i, path, rights }] t := by
  intro path' name
  rw [latest_singleton]
  by_cases hentry : path' = path ∧ name = i.name
  · obtain ⟨rfl, rfl⟩ := hentry
    simp [hright]
  · rw [if_neg hentry]
    rfl

/-- Setting an entry in the table is denied, or sets it. -/
theorem setEntry_table_cases (path name : String) (rights : AccessRights) (h : Host) :
    (∃ e h', setEntry .table path name rights h = .error e h' ∧ h'.access = h.access) ∨
    ∃ h', setEntry .table path name rights h = .ok () h' ∧
      h'.access.lists = (h.access.withEntry path name rights).lists := by
  unfold setEntry
  rw [note_bind]
  dsimp only
  rw [bind_apply_of_ok (show (get : Run Host) (h.noted _) = .ok (h.noted _) _ from rfl)]
  unfold AccessTable.setEntry
  by_cases hdenied : (h.noted (.requested (.setEntry path name rights))).access.denied.contains
      path = true
  · rw [if_pos hdenied]
    exact .inl ⟨_, _, rfl, rfl⟩
  · rw [if_neg hdenied]
    exact .inr ⟨_, rfl, rfl⟩

theorem grantEnds_grant (i : Identity) (path : String) (rights : AccessRights) (h : Host) :
    GrantEnds i path rights h (grant .table .table i path rights h) := by
  have hasked := IdentityStore.steady_requireExisting (R := SameBy Host.access) .table i
  have hlooked := leads_pathExists (R := SameBy Host.access) (Path.ofString path)
  unfold grant
  cases hrequire : IdentityStore.requireExisting .table i h with
  | error e h₁ =>
      rw [bind_apply_of_error hrequire]
      exact .refused (hasked.of_error hrequire)
  | ok i' h₁ =>
      rw [bind_apply_of_ok hrequire]
      cases hexists : pathExists (Path.ofString path) h₁ with
      | error e h₂ =>
          rw [bind_apply_of_error hexists]
          exact .refused ((hlooked.of_error hexists).trans (hasked.of_ok hrequire))
      | ok found h₂ =>
          have hsame : h₂.access = h.access :=
            (hlooked.of_ok hexists).trans (hasked.of_ok hrequire)
          rw [bind_apply_of_ok hexists]
          cases found with
          | false => exact .refused hsame
          | true =>
              rw [if_neg (by decide)]
              rw [bind_apply_of_ok (show entries .table path h₂ = .ok (h₂.access.entries path) h₂
                from rfl)]
              by_cases hright : (h₂.access.entries path).get? i.name = some rights
              · rw [if_pos hright]
                exact .granted (hsame ▸ afterGrants_of_right hright)
              · rw [if_neg hright, log_bind]
                obtain ⟨e, h₃, hset, hkept⟩ | ⟨h₃, hset, hlists⟩ := setEntry_table_cases path i.name
                  rights (h₂.logged .info .directories ("Granting " ++ rights.toString ++ " on " ++
                    path ++ " to '" ++ i.name ++ "'"))
                · rw [bind_apply_of_error hset]
                  exact .refused (hkept.trans hsame)
                · rw [bind_apply_of_ok hset]
                  exact .granted (hsame ▸ afterGrants_withEntry h₂.access i path rights hlists)

/-! ## A batch -/

/-- One attempt of a batch. -/
def attempt (i : Identity) (rights : AccessRights) (path : String) :
    Run (Except Refusal DirectoryGrant) := do
  match ← Run.catchRefusal (grant .table .table i path rights) with
  | .ok g => return .ok g
  | .error r =>
    Run.log .error .directories ("Directory grant failed for " ++ path ++ ": " ++ r.message)
    return .error r

/-- The results with those of an attempt made before. -/
def GrantResults.following (results : GrantResults) : Except Refusal DirectoryGrant → GrantResults
  | .ok g => { results with granted := g :: results.granted }
  | .error r => { results with failures := r :: results.failures }

/-- The grants that are made on the paths of a list, until one fails with more than a refusal. -/
def grantsOn (i : Identity) (rights : AccessRights) : List String → Host → List DirectoryGrant
  | [], _ => []
  | path :: rest, h =>
    match attempt i rights path h with
    | .ok outcome h' => outcome.toOption.toList ++ grantsOn i rights rest h'
    | .error _ _ => []

/-- The grants that a batch makes. -/
def grantsOfAll (i : Identity) (paths : List String) (rights : AccessRights) (h : Host) :
    List DirectoryGrant :=
  match IdentityStore.requireExisting .table i h with
  | .ok _ h' => grantsOn i rights paths h'
  | .error _ _ => []

theorem attemptAll_cons (i : Identity) (rights : AccessRights) (path : String)
    (rest : List String) :
    attemptAll .table .table i rights (path :: rest) = (do
      let outcome ← attempt i rights path
      let results ← attemptAll .table .table i rights rest
      return results.following outcome) := by
  rw [attemptAll, attempt, bind_assoc]
  refine bind_congr fun outcome => ?_
  cases outcome with
  | ok g => rfl
  | error r => simp only [bind_assoc, pure_bind]; rfl

/-- An attempt makes the grant on its path, if it makes one. -/
theorem eq_of_attempt {i : Identity} {rights : AccessRights} {path : String} {h h' : Host}
    {g : DirectoryGrant} (hattempt : attempt i rights path h = .ok (.ok g) h') :
    g = { identity := i, path, rights } := by
  have hends := grantEnds_grant i path rights h
  obtain ⟨caught, h₁, hcaught, hmore⟩ := bind_apply_eq_ok_iff.1 hattempt
  unfold Run.catchRefusal at hcaught
  cases hgrant : grant .table .table i path rights h with
  | ok g' h₂ =>
      rw [hgrant] at hends hcaught
      cases hcaught
      cases hmore
      cases hends
      rfl
  | error e h₂ =>
      rw [hgrant] at hcaught
      cases e with
      | refused r =>
          cases hcaught
          cases hmore
      | _ => cases hcaught

/-- An attempt leaves what the grant that it made does, if it made one. -/
theorem afterGrants_attempt (i : Identity) (rights : AccessRights) (path : String) (h : Host) :
    match attempt i rights path h with
    | .ok outcome h' => h.access.AfterGrants outcome.toOption.toList h'.access
    | .error _ h' => h'.access = h.access := by
  have hends := grantEnds_grant i path rights h
  unfold attempt
  cases hgrant : grant .table .table i path rights h with
  | ok g h' =>
      rw [hgrant] at hends
      rw [bind_apply_of_ok (catchRefusal_of_ok hgrant)]
      cases hends with
      | granted hafter => exact hafter
  | error e h' =>
      rw [hgrant] at hends
      cases hends with
      | refused hsame =>
          cases e with
          | refused r =>
              rw [bind_apply_of_ok (catchRefusal_of_refused hgrant)]
              exact AccessTable.afterGrants_nil (congrArg AccessTable.lists hsame)
          | _ =>
              rw [bind_apply, Run.catchRefusal, hgrant]
              exact hsame

theorem afterGrants_attemptAll (i : Identity) (rights : AccessRights) :
    ∀ (paths : List String) (h : Host), h.access.AfterGrants (grantsOn i rights paths h)
      ((attemptAll .table .table i rights paths).hostAfter h).access := by
  intro paths
  induction paths with
  | nil =>
      intro h
      exact AccessTable.afterGrants_nil rfl
  | cons path rest ih =>
      intro h
      have hfirst := afterGrants_attempt i rights path h
      rw [attemptAll_cons, grantsOn]
      cases hattempt : attempt i rights path h with
      | error e h' =>
          rw [hattempt] at hfirst
          rw [hostAfter_of_error (bind_apply_of_error hattempt _)]
          exact AccessTable.afterGrants_nil (congrArg AccessTable.lists hfirst)
      | ok outcome h' =>
          rw [hattempt] at hfirst
          refine hfirst.append ?_
          have hrest := ih h'
          cases hended : attemptAll .table .table i rights rest h' with
          | ok results h'' =>
              rw [hostAfter_of_ok hended] at hrest
              rwa [hostAfter_of_ok ((bind_apply_of_ok hattempt _).trans (bind_apply_of_ok hended _))]
          | error e h'' =>
              rw [hostAfter_of_error hended] at hrest
              rwa [hostAfter_of_error
                ((bind_apply_of_ok hattempt _).trans (bind_apply_of_error hended _))]

/-- Attempts that came to their end list the grants that were made. -/
theorem granted_attemptAll (i : Identity) (rights : AccessRights) :
    ∀ {paths : List String} {h h' : Host} {results : GrantResults},
      attemptAll .table .table i rights paths h = .ok results h' →
      results.granted = grantsOn i rights paths h := by
  intro paths
  induction paths with
  | nil =>
      intro h h' results hended
      cases hended
      rfl
  | cons path rest ih =>
      intro h h' results hended
      rw [attemptAll_cons] at hended
      obtain ⟨outcome, h₁, hattempt, hmore⟩ := bind_apply_eq_ok_iff.1 hended
      obtain ⟨others, h₂, hrest, hreturn⟩ := bind_apply_eq_ok_iff.1 hmore
      cases hreturn
      rw [grantsOn, hattempt]
      dsimp only
      rw [← ih hrest]
      cases outcome <;> rfl

theorem afterGrants_grantAll (i : Identity) (paths : List String) (rights : AccessRights)
    (h : Host) : h.access.AfterGrants (grantsOfAll i paths rights h)
      ((grantAll .table .table i paths rights).hostAfter h).access := by
  have hasked := IdentityStore.steady_requireExisting (R := SameBy Host.access) .table i
  unfold grantsOfAll
  cases hrequire : IdentityStore.requireExisting .table i h with
  | error e h' =>
      have hended : grantAll .table .table i paths rights h = .error e h' :=
        bind_apply_of_error hrequire _
      rw [hostAfter_of_error hended]
      exact AccessTable.afterGrants_nil (congrArg AccessTable.lists (hasked.of_error hrequire))
  | ok i' h' =>
      have hafter := afterGrants_attemptAll i rights paths h'
      rw [show h'.access = h.access from hasked.of_ok hrequire] at hafter
      have hhost : (grantAll .table .table i paths rights).hostAfter h =
          (attemptAll .table .table i rights paths).hostAfter h' := by
        unfold hostAfter grantAll
        rw [bind_apply_of_ok hrequire, bind_apply]
        cases attemptAll .table .table i rights paths h' with
        | error e h'' => rfl
        | ok results h'' =>
            cases hnone : results.failures.isEmpty <;> simp only [hnone] <;> rfl
      rwa [hhost]

/-- A batch that returned lists the grants that it made. -/
theorem eq_grantsOfAll_of_ok {i : Identity} {paths : List String} {rights : AccessRights}
    {h h' : Host} {gs : List DirectoryGrant}
    (hended : grantAll .table .table i paths rights h = .ok gs h') :
    gs = grantsOfAll i paths rights h := by
  obtain ⟨i', h₁, hrequire, hmore⟩ := bind_apply_eq_ok_iff.1 hended
  obtain ⟨results, h₂, hattempts, hreturn⟩ := bind_apply_eq_ok_iff.1 hmore
  rw [grantsOfAll, hrequire]
  dsimp only
  rw [← granted_attemptAll i rights hattempts]
  split at hreturn
  · cases hreturn
    rfl
  · exact nomatch hreturn

/-- The grants are made on some of the paths, in their order, to one account and with one kind of
rights. -/
theorem exists_sublist_grantsOn (i : Identity) (rights : AccessRights) :
    ∀ (paths : List String) (h : Host), ∃ granted : List String, granted.Sublist paths ∧
      grantsOn i rights paths h = granted.map fun path => { identity := i, path, rights } := by
  intro paths
  induction paths with
  | nil =>
      intro h
      exact ⟨[], List.Sublist.refl _, rfl⟩
  | cons path rest ih =>
      intro h
      rw [grantsOn]
      cases hattempt : attempt i rights path h with
      | error e h' => exact ⟨[], List.nil_sublist _, rfl⟩
      | ok outcome h' =>
          obtain ⟨granted, hsublist, hgrants⟩ := ih h'
          dsimp only
          rw [hgrants]
          cases outcome with
          | error r => exact ⟨granted, hsublist.cons path, rfl⟩
          | ok g =>
              rw [eq_of_attempt hattempt]
              exact ⟨path :: granted, hsublist.cons_cons path, rfl⟩

end AccessControl

/-! ## A run -/

namespace Orchestrator

variable {o : Orchestrator} {request : Request} {h : Host}

/-- What is logged before the directories are granted. -/
def directoriesNotice (request : Request) (name : String) : String :=
  "Granting " ++ request.rights.toString ++ " on " ++ toString request.directories.length ++
    " director" ++ (if request.directories.length = 1 then "y" else "ies") ++ " to '" ++ name ++ "'"

/-- Who is granted the directories, if there are any. -/
def granteeStep (request : Request) (target : Option Identity) : Step (Option Identity) :=
  if request.directories.isEmpty then return none
  else
    match target with
    | none => throw (Capability.noTarget request)
    | some t => do
      Step.ofRun (Run.log .debug .platform (directoriesNotice request t.name))
      return some t

/-- The directories are granted, and the report tells. -/
def grantStep (request : Request) : Option Identity → Step Unit
  | none => pure ()
  | some t => do
    let grants ← Step.ofRun
      (AccessControl.grantAll .table .table t request.directories request.rights)
    Step.report fun r => { r with directoriesGranted := grants.map DirectoryGrant.path }

/-- A run from its confirmation until its directories are granted. -/
def upToGrants (o : Orchestrator) (request : Request) : Step (Option Identity) := do
  let target ← o.resolveTarget request
  runnerStep request target
  granteeStep request target

theorem directoriesStep_eq (request : Request) (target : Option Identity) :
    directoriesStep request target = (granteeStep request target >>= grantStep request) := by
  unfold directoriesStep granteeStep
  cases request.directories.isEmpty with
  | true => rfl
  | false => cases target <;> rfl

theorem apply_eq_upToGrants (htables : o.OnTables) : o.apply request = (do
    let grantee ← o.upToGrants request
    grantStep request grantee
    Step.ofRun
      (Run.log .info .orchestrator ("Provisioning finished on " ++ o.capability.name))) := by
  rw [apply_eq htables, upToGrants]
  simp only [directoriesStep_eq, bind_assoc]

/-- The grants that a run makes that begins on the host `h`. -/
def grantsFrom (o : Orchestrator) (request : Request) (h : Host) : List DirectoryGrant :=
  match o.upToGrants request ⟨h, { platform := o.capability.name }⟩ with
  | .ok (some t) p => AccessControl.grantsOfAll t request.directories request.rights p.host
  | _ => []

/-- The grants that a run makes, if it begins. -/
def grantsOfRun (o : Orchestrator) (request : Request) (h : Host) : List DirectoryGrant :=
  match (do o.validate request; o.confirm request : Run Unit) h with
  | .ok _ h' => o.grantsFrom request h'
  | .error _ _ => []

section
variable {R : Host → Host → Prop} [Serving R]

/-- On the tables resolving the target is at most an edit of the accounts. -/
theorem leads_resolveTarget_tables (htables : o.OnTables) (request : Request)
    (hallows : ∀ name, Allows R (.createAccount name))
    (haccounts : ∀ (h : Host) (accounts : AccountTable), R h { h with accounts }) :
    Step.Leads R (o.resolveTarget request) := by
  refine leads_resolveTarget o request fun name password _ => ?_
  have hstore : o.capability.identities = .table := by rw [htables]; rfl
  rw [hstore]
  exact IdentityStore.leads_create_table password (hallows name) haccounts

theorem leads_runnerStep (hprivileges : AllowsPrivileges R)
    (hallows : ∀ name privileges, Allows R (.addPrivileges name privileges)) (request : Request)
    (target : Option Identity) : Step.Leads R (runnerStep request target) :=
  Step.Leads.ite (Capability.steady_provisionRunner _ _ _ _ fun _ _ _ =>
    SecurityPolicy.steady_addAccountRights hprivileges _ (hallows _ _)) (Step.leads_pure _)

theorem leads_granteeStep (request : Request) (target : Option Identity) :
    Step.Leads R (granteeStep request target) := by
  refine Step.Leads.ite (Step.leads_pure _) ?_
  cases target with
  | none => exact Step.leads_throw _
  | some t => exact (Step.leads_ofRun (steady_log _ _ _)).bind fun _ => Step.leads_pure _

end

/-- Until its directories are granted, a run leaves the access lists alone. -/
theorem access_upToGrants (htables : o.OnTables) (request : Request) :
    Step.Leads (SameBy Host.access) (o.upToGrants request) :=
  (leads_resolveTarget_tables htables request (fun _ _ => rfl) fun _ _ => rfl).bind fun target =>
    (leads_runnerStep ⟨fun _ _ => rfl, fun _ _ _ _ _ => rfl⟩ (fun _ _ _ => rfl) request
      target).bind fun _ => leads_granteeStep request target

/-- How the steps of a run end, by how its directories fared. -/
inductive GrantsEnd (o : Orchestrator) (request : Request) (h : Host) :
    EStateM.Result Fault Progress Unit → Prop where
  /-- It failed before any was attempted. -/
  | unreached {e : Fault} {p : Progress}
      (hupto : o.upToGrants request ⟨h, { platform := o.capability.name }⟩ = .error e p) :
      GrantsEnd o request h (.error e p)
  /-- There were none. -/
  | unwanted {p : Progress}
      (hupto : o.upToGrants request ⟨h, { platform := o.capability.name }⟩ = .ok none p) :
      GrantsEnd o request h (.ok () { p with
        host := p.host.logged .info .orchestrator
          ("Provisioning finished on " ++ o.capability.name) })
  /-- The batch failed. -/
  | refused {t : Identity} {p : Progress} {e : Fault} {h' : Host}
      (hupto : o.upToGrants request ⟨h, { platform := o.capability.name }⟩ = .ok (some t) p)
      (hgrants : AccessControl.grantAll .table .table t request.directories request.rights p.host =
        .error e h') :
      GrantsEnd o request h (.error e { p with host := h' })
  /-- All were granted. -/
  | granted {t : Identity} {p : Progress} {gs : List DirectoryGrant} {h' : Host}
      (hupto : o.upToGrants request ⟨h, { platform := o.capability.name }⟩ = .ok (some t) p)
      (hgrants : AccessControl.grantAll .table .table t request.directories request.rights p.host =
        .ok gs h') :
      GrantsEnd o request h (.ok () {
        host := h'.logged .info .orchestrator ("Provisioning finished on " ++ o.capability.name)
        report := { p.report with directoriesGranted := gs.map DirectoryGrant.path } })

theorem grantsEnd_apply (htables : o.OnTables) (request : Request) (h : Host) :
    GrantsEnd o request h (o.apply request ⟨h, { platform := o.capability.name }⟩) := by
  rw [apply_eq_upToGrants htables]
  cases hupto : o.upToGrants request ⟨h, { platform := o.capability.name }⟩ with
  | error e p =>
      rw [bind_eq_of_error hupto]
      exact .unreached hupto
  | ok grantee p =>
      rw [bind_eq_of_ok hupto]
      cases grantee with
      | none => exact .unwanted hupto
      | some t =>
          cases hgrants : AccessControl.grantAll .table .table t request.directories
              request.rights p.host with
          | error e h' =>
              have hfailed : grantStep request (some t) p = .error e { p with host := h' } :=
                Step.ofRun_bind_of_error hgrants _
              rw [bind_eq_of_error hfailed]
              exact .refused hupto hgrants
          | ok gs h' =>
              have hdone : grantStep request (some t) p = .ok () { p with
                  host := h'
                  report := { p.report with directoriesGranted := gs.map DirectoryGrant.path } } :=
                Step.ofRun_bind_of_ok hgrants _
              rw [bind_eq_of_ok hdone]
              exact .granted hupto hgrants

theorem afterGrants_apply (htables : o.OnTables) (request : Request) (h : Host) :
    h.access.AfterGrants (o.grantsFrom request h)
      ((o.apply request).progressAfter ⟨h, { platform := o.capability.name }⟩).host.access := by
  have hbefore := access_upToGrants htables request
  have hends := grantsEnd_apply htables request h
  unfold Step.progressAfter grantsFrom
  revert hends
  generalize o.apply request ⟨h, { platform := o.capability.name }⟩ = result
  intro hends
  cases hends with
  | unreached hupto =>
      rw [hupto]
      exact AccessTable.afterGrants_nil (congrArg AccessTable.lists (hbefore.of_error hupto))
  | unwanted hupto =>
      rw [hupto]
      exact AccessTable.afterGrants_nil (congrArg AccessTable.lists (hbefore.of_ok hupto))
  | @refused t p e h' hupto hgrants =>
      have hafter := AccessControl.afterGrants_grantAll t request.directories request.rights p.host
      rw [hostAfter_of_error hgrants, show p.host.access = h.access from hbefore.of_ok hupto]
        at hafter
      rw [hupto]
      exact hafter
  | @granted t p gs h' hupto hgrants =>
      have hafter := AccessControl.afterGrants_grantAll t request.directories request.rights p.host
      rw [hostAfter_of_ok hgrants, show p.host.access = h.access from hbefore.of_ok hupto] at hafter
      rw [hupto]
      exact hafter

/-- What a run leaves of the access lists, if whoever is asked leaves them alone. -/
theorem afterGrants_run (htables : o.OnTables)
    (hkeeps : ∀ h, ((o.confirm request).hostAfter h).access.lists = h.access.lists) (s : Session) :
    s.host.access.AfterGrants (o.grantsOfRun request s.host)
      (o.sessionAfter request s).host.access := by
  obtain ⟨hbegun, hunbegun⟩ := view_eq_of_confirm (fun h => h.access.lists) (s := s)
    (fun _ hlooked => congrArg AccessTable.lists hlooked.access_eq) hkeeps
  unfold grantsOfRun
  cases hended : (do o.validate request; o.confirm request : Run Unit) s.host with
  | error e h =>
      have hrun : o.run request s = .error e ⟨h, s.report⟩ := by rw [run, hended]
      rw [sessionAfter, hrun]
      exact AccessTable.afterGrants_nil (hunbegun e h hended)
  | ok u h =>
      rw [sessionAfter_of_begins hended]
      exact (AccessTable.afterGrants_nil (hbegun h hended)).append
        (afterGrants_apply htables request h)

end Orchestrator

end Provisioning
