/-
# `Provisioning.Proofs.CommandLine.Notice` — a failed run and the restart it calls for

Privileges take effect after a restart, and a run that has added some may
still fail.  What the command then says of the failure goes by its kind.

    refusal                 "error:", the hint, and the notice if a privilege was added
    error of the system     "error:", without the notice
    interrupt               "Cancelled", without the notice

The report that the run has kept tells whether a privilege was added, so a
refusal comes with the notice exactly if one was.  Of the other two kinds the
command says the same whether or not one was.

**Proved here.**  All this, for every accepted command line on windows, every
backend and every behaviour of the programs (`perform_announces`).  That the
notice stands after every failed run that has added a privilege is refuted by a
directory that is closed to the run meanwhile (`not_always_noticed`).
-/
import Provisioning.Proofs.CommandLine.Conclusion
import Provisioning.Proofs.Privilege.Restart

namespace Provisioning.CommandLine

open Run

/-! ## What a command keeps of its run -/

section
variable {capability : Option Capability} {config : Config} {confirmation : Confirmation}
  {request : Request} {h : Host} {identities : IdentityStore} {policy : SecurityPolicy}
  {access : AccessControl}

/-- The report that is left tells whether the run of a command has added a privilege. -/
theorem discloses_requested
    (hchosen : chosen capability config h = some (.windows identities policy access))
    (hspares : ∀ q, Leads Host.Spares (confirmation q)) {r : EStateM.Result Fault Session Report}
    (hr : Requested capability config confirmation request h r) :
    policy.Discloses h (sessionOf r).host ((sessionOf r).report.any Report.restartRequired) := by
  obtain ⟨h', validated, hproceeds, hsession⟩ := hr.ran hchosen
  rw [hsession]
  refine SecurityPolicy.Discloses.trans_spares (.of_spares (Steady.of_proceeds hproceeds) ?_)
    (Steady.of_proceeds (proceeds_revalidated _ validated))
  refine Orchestrator.discloses_run rfl (fun ask hsome => ?_) ⟨h', none⟩ rfl
  cases hsome
  exact hspares

/-- What fails the run of a command that has added a privilege is not the operator's refusal. -/
theorem undeclined_requested
    (hchosen : chosen capability config h = some (.windows identities policy access))
    {F : Fault → Host → Prop} (hreal : h.programs.Real) (hask : confirmation.Orderly F)
    (hspares : ∀ q, Leads Host.Spares (confirmation q)) {e : Fault} {s : Session}
    (hr : Requested capability config confirmation request h (.error e s))
    (hadded : policy.Added h s.host) : e.Undeclined := by
  cases hr with
  | unsupported hnone hproceeds =>
      rw [hchosen] at hnone
      exact nomatch hnone
  | @failed c h' _ s' validated hsome hproceeds hrun =>
      rw [hchosen] at hsome
      cases hsome
      have hreal' : h'.programs.Real := by rwa [hproceeds.programs_eq]
      -- when elevation was proved is no part of what was added
      have hadded' : policy.Added h s'.host := by cases policy <;> exact hadded
      have horderly : ∀ ask, some confirmation = some ask → ask.Orderly F := by
        intro ask hsome
        cases hsome
        exact hask
      refine Orchestrator.undeclined_of_added rfl (fun ask hsome => ?_) horderly hreal' hrun
        (Steady.of_proceeds hproceeds) hadded'
      cases hsome
      exact hspares

end

/-! ## The notice -/

/-- The notice stands on the error output. -/
def Performance.Notices (p : Performance) : Prop :=
  ∃ before after : String, p.errorOutput = before ++ restartAfterFailure ++ after

/-- What the command says of the run on windows that ended as `r`, and of the restart after it. -/
structure Performance.Announces (p : Performance) (runtime : Runtime) (policy : SecurityPolicy)
    (T : String → Prop) (verbose : Bool) (h : Host) (r : EStateM.Result Fault Session Report) :
    Prop where
  /-- Of a run that returned only the summary is said. -/
  returned : ∀ report s, r = .ok report s →
    p.Says T verbose h s (s.host.shown (report.summary ++ "\n")) ""
  ending : ∀ e s, r = .error e s → p.ending = endingOf e
  /-- A refusal after a privilege was added is an error, and is told with the notice. -/
  noticed : ∀ refusal s, r = .error (.refused refusal) s → policy.Added h s.host →
    p.ending = .returned 1 ∧ p.Notices ∧
      p.Says T verbose h s ""
        (failureText runtime verbose s (.refused refusal) restartAfterFailure)
  /-- Where no privilege was added, the failure is told without the notice. -/
  silent : ∀ e s, r = .error e s → ¬ policy.Added h s.host →
    p.Says T verbose h s "" (failureText runtime verbose s e "")
  /-- Whatever else fails a run is told without the notice in any case. -/
  unnoticed : ∀ e s, r = .error e s → (∀ refusal, e ≠ .refused refusal) →
    p.Says T verbose h s "" (failureText runtime verbose s e "")

section
variable {p : Performance} {runtime : Runtime} {T : String → Prop} {verbose : Bool} {h : Host}
  {s : Session}

/-- A refusal is told with whatever notice there is. -/
theorem notices_of_says {r : Refusal} (hkind : r.kind ≠ .operationCancelled)
    (hsaid : p.Says T verbose h s ""
      (failureText runtime verbose s (.refused r) restartAfterFailure)) : p.Notices := by
  obtain ⟨own, -, -, -, herror⟩ := hsaid
  rw [failureText, if_neg hkind, ← String.append_assoc, ← String.append_assoc] at herror
  exact ⟨_, _, herror⟩

/-- Nothing but a refusal is told with a notice. -/
theorem failureText_of_not_refused {e : Fault} (hother : ∀ refusal, e ≠ .refused refusal)
    (notice : String) :
    failureText runtime verbose s e notice = failureText runtime verbose s e "" := by
  cases e with
  | refused r => exact absurd rfl (hother r)
  | _ => rfl

/-- Of a run that returned there is no failure to tell. -/
theorem announces_of_ok {policy : SecurityPolicy} {report : Report}
    (hsaid : p.Says T verbose h s (s.host.shown (report.summary ++ "\n")) "") :
    p.Announces runtime policy T verbose h (.ok report s) where
  returned := by
    rintro _ _ ⟨⟩
    exact hsaid
  ending _ _ hended := nomatch hended
  noticed _ _ hended := nomatch hended
  silent _ _ hended := nomatch hended
  unnoticed _ _ hended := nomatch hended

/-- A failure is told with the notice if the report that was kept calls for it. -/
theorem announces_of_error {policy : SecurityPolicy} {e : Fault} {due : Bool}
    (hending : p.ending = endingOf e)
    (hsaid : p.Says T verbose h s ""
      (failureText runtime verbose s e (if due then restartAfterFailure else "")))
    (hdue : due = true ↔ policy.Added h s.host)
    (hundeclined : policy.Added h s.host → e.Undeclined) :
    p.Announces runtime policy T verbose h (.error e s) where
  returned _ _ hended := nomatch hended
  ending := by
    rintro _ _ ⟨⟩
    exact hending
  noticed := by
    rintro refusal _ ⟨⟩ hadded
    have hkind := hundeclined hadded refusal rfl
    rw [if_pos (hdue.2 hadded)] at hsaid
    refine ⟨?_, notices_of_says hkind hsaid, hsaid⟩
    rw [hending]
    exact endingOf_eq_failed_iff.2 ⟨rfl, beq_false_of_ne hkind⟩
  silent := by
    rintro _ _ ⟨⟩ hnone
    rwa [if_neg (mt hdue.1 hnone)] at hsaid
  unnoticed := by
    rintro _ _ ⟨⟩ hother
    rwa [failureText_of_not_refused hother] at hsaid

end

/-! ### Someone who always gives the same answer -/

theorem orderly_fixedAnswer (answer : Bool) (is : List Intervention) :
    (fixedAnswer answer is).Orderly fun _ _ => False := by
  intro q h hreal
  have hprograms : (h.interveneAll is).programs = h.programs :=
    Host.view_interveneAll Host.programs (fun h i => by cases i <;> rfl) h is
  change (h.interveneAll is).programs.Real
  rwa [hprograms]

/-- No intervention gives a privilege. -/
theorem spares_fixedAnswer (answer : Bool) (is : List Intervention) (q : String) :
    Leads Host.Spares (fixedAnswer answer is q) := by
  have hrights (h : Host) : (h.interveneAll is).rights.rights = h.rights.rights :=
    Host.view_interveneAll (·.rights.rights) (fun h i => by cases i <;> rfl) h is
  exact Leads.bind (fun h => ⟨hrights h, [], by rw [List.append_nil]; exact h.journal_interveneAll is,
    by simp⟩) fun _ => leads_pure _

theorem prints_fixedAnswer {T : String → Prop} (answer : Bool) (is : List Intervention) (q : String) :
    Leads (Host.Prints T) (fixedAnswer answer is q) :=
  Leads.bind (fun h => ⟨[], by rw [List.append_nil]; exact h.journal_interveneAll is, by simp⟩)
    fun _ => leads_pure _

/-! ### The command announces -/

/-- **A failed run and its restart.**  On windows the command tells a refusal with the notice exactly
if the run has added a privilege before, and says of errors of the system and of interrupts the same
whether or not it has. -/
theorem perform_announces {runtime : Runtime} {argv : List String} {capability : Option Capability}
    {confirmation : Confirmation} {h : Host} {settings : Settings} {T : String → Prop}
    {F : Fault → Host → Prop} {identities : IdentityStore} {policy : SecurityPolicy}
    {access : AccessControl}
    (hargv : parse runtime (platformOf capability h) argv = .ok settings)
    (hchosen : chosen capability { assumeYes := settings.yes } h =
      some (.windows identities policy access))
    (hreal : h.programs.Real) (hask : confirmation.Orderly F)
    (hspares : ∀ q, Leads Host.Spares (confirmation q))
    (hprints : ∀ q, Leads (Host.Prints T) (confirmation q)) {request : Request}
    (hrequest : settings.request (platformOf capability h) = .ok request) :
    (perform runtime argv capability confirmation h).Announces runtime policy T settings.verbose h
      (runRequest capability { assumeYes := settings.yes } confirmation request ⟨h, none⟩) := by
  have hr : Requested capability { assumeYes := settings.yes } confirmation request h
      (runRequest capability { assumeYes := settings.yes } confirmation request ⟨h, none⟩) :=
    requested_runRequest
  have hdiscloses := discloses_requested hchosen hspares hr
  cases hrun : runRequest capability { assumeYes := settings.yes } confirmation request ⟨h, none⟩ with
  | ok report s => exact announces_of_ok (perform_of_returned hargv hrequest hprints hrun).2
  | error e s =>
      obtain ⟨hending, hsaid⟩ := perform_of_failed hargv hrequest hprints hrun
      rw [hrun] at hdiscloses hr
      exact announces_of_error hending hsaid hdiscloses.due_iff
        (undeclined_requested hchosen hreal hask hspares hr)

/-! ### A desk with one directory -/

/-- On windows, with everything in memory. -/
def inMemory : Capability := .windows .table .table .table

/-- The host with one account besides the operator's and one directory, where the access lists of
some paths cannot be edited. -/
def desk (denied : List String) : Host :=
  { accounts := .ofNames ["svc"] "operator", tree := .ofRows [(Path.ofString "/srv", {})]
    access := { denied } }

/-- The account is to run things, and to have the directory. -/
def deskArgs : List String := ["--user", "svc", "--runner", "svc", "--dir", "/srv"]

def deskSettings : Settings :=
  { user := .text "svc", runner := some "svc", directories := ["/srv"] }

def deskRequest : Request :=
  { user := some "svc", runnerRequested := true, runner := some "svc", directories := ["/srv"] }

theorem parse_desk (denied : List String) :
    parse {} (platformOf (some inMemory) (desk denied)) deskArgs = .ok deskSettings := by
  have hwords : wordsOf Platform.windows.spellings deskArgs =
      .ok [(.option (some .user) "--user" none, "--user"), (.value, "svc"),
        (.option (some .runner) "--runner" none, "--runner"), (.value, "svc"),
        (.option (some .dir) "--dir" none, "--dir"), (.value, "/srv")] := rfl
  have hdirectories : splitDirectories "/srv" = ["/srv"] := by decide
  change parse {} .windows deskArgs = .ok deskSettings
  rw [parse, hwords]
  simp [meet, metIn, takeValue, Flag.arity, Settings.setAll, Settings.set, Settings.datumOf, bind,
    Except.bind, pure, Except.pure, hdirectories, deskSettings]

theorem request_desk (denied : List String) :
    deskSettings.request (platformOf (some inMemory) (desk denied)) = .ok deskRequest := rfl

theorem real_desk (denied : List String) : (desk denied).programs.Real := by
  intro started i tree e tree' hended
  exact nomatch hended

/-- Where the access list cannot be edited, the run is refused after the grant, and the notice is
there. -/
theorem perform_announces_desk :
    ∃ refusal s, runRequest (some inMemory) {} (fixedAnswer true []) deskRequest
        ⟨desk ["/srv"], none⟩ = .error (.refused refusal) s ∧
      SecurityPolicy.Added .table (desk ["/srv"]) s.host ∧
      (perform {} deskArgs (some inMemory) (fixedAnswer true []) (desk ["/srv"])).ending = .returned 1 ∧
      (perform {} deskArgs (some inMemory) (fixedAnswer true []) (desk ["/srv"])).Notices := by
  have hannounces := perform_announces (T := fun _ => False) (parse_desk ["/srv"]) rfl
    (real_desk ["/srv"]) (orderly_fixedAnswer true []) (spares_fixedAnswer true [])
    (prints_fixedAnswer true []) (request_desk ["/srv"])
  obtain ⟨refusal, s, hrun, hadded⟩ : ∃ refusal s, runRequest (some inMemory) {} (fixedAnswer true [])
      deskRequest ⟨desk ["/srv"], none⟩ = .error (.refused refusal) s ∧
        SecurityPolicy.Added .table (desk ["/srv"]) s.host :=
    ⟨_, _, rfl, "svc", .assignPrimaryToken, by decide, by decide⟩
  obtain ⟨hending, hnotices, -⟩ := hannounces.noticed refusal s hrun hadded
  exact ⟨refusal, s, hrun, hadded, hending, hnotices⟩

/-- While the operator is asked, the directory is closed. -/
def closing : List Intervention :=
  [.addPath (Path.ofString "/srv") { denies := { stat := true } }]

/-- A failed run that has added a privilege may be left without the notice: an error of the system is
told without it. -/
theorem not_always_noticed :
    ¬ ∀ (runtime : Runtime) (argv : List String) (capability : Option Capability)
        (confirmation : Confirmation) (h : Host) (settings : Settings) (request : Request)
        (identities : IdentityStore) (policy : SecurityPolicy) (access : AccessControl),
      parse runtime (platformOf capability h) argv = .ok settings → h.programs.Real →
      confirmation.Orderly (fun _ _ => False) →
      (∀ q, Leads Host.Spares (confirmation q)) →
      settings.request (platformOf capability h) = .ok request →
      chosen capability { assumeYes := settings.yes } h = some (.windows identities policy access) →
      ∀ e s status, runRequest capability { assumeYes := settings.yes } confirmation request ⟨h, none⟩ =
          .error e s →
        (perform runtime argv capability confirmation h).ending = .returned status →
        policy.Added h s.host → (perform runtime argv capability confirmation h).Notices := by
  intro hnoticed
  obtain ⟨e, s, hrun, hadded⟩ : ∃ e s, runRequest (some inMemory) {} (fixedAnswer true closing)
      deskRequest ⟨desk [], none⟩ = .error e s ∧ SecurityPolicy.Added .table (desk []) s.host :=
    ⟨_, _, rfl, "svc", .assignPrimaryToken, by decide, by decide⟩
  have hperform := perform_of_request (parse_desk []) (request_desk []) (fixedAnswer true closing)
  obtain ⟨before, after, herror⟩ := hnoticed {} deskArgs (some inMemory) (fixedAnswer true closing)
    (desk []) deskSettings deskRequest .table .table .table (parse_desk []) (real_desk [])
    (orderly_fixedAnswer true closing) (spares_fixedAnswer true closing) (request_desk []) rfl e s 1
    hrun (by rw [hperform]; rfl) hadded
  rw [hperform] at herror
  have hmem : ';' ∈ (before ++ restartAfterFailure ++ after).toList := by
    rw [String.toList_append, String.toList_append]
    exact List.mem_append_left _ (List.mem_append_right _ (by decide))
  rw [← herror] at hmem
  revert hmem
  decide +kernel

end Provisioning.CommandLine
