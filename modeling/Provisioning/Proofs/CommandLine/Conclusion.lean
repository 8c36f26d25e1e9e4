/-
# `Provisioning.Proofs.CommandLine.Conclusion` — what is on the outputs when the command ends

The command runs a request with the capability that it was given, or with the
one of the host if there is any.  What a run printed and logged stands first on
the outputs, and then comes what the command says of how the run ended.

    run returned     summary               nothing more          0
                     nothing               nothing more          none, if it cannot be printed
    run failed       nothing               of the failure        1, 130, or none

**Stated here.**  On the way a run prints only what the one who is asked prints
(`prints_requested`), and nothing of it is lost (`Performance.Says`).  What the
command then says of the run is said word for word, with its status
(`perform_of_returned`, `perform_of_failed`).
-/
import Mathlib.Tactic.SplitIfs
import Provisioning.Proofs.CommandLine.Request
import Provisioning.Proofs.Consent

namespace Provisioning

namespace Journal

theorem output_append (j k : Journal) : (j ++ k).output = j.output ++ k.output := by
  simp [output]

theorem errorOutput_append (shows : LogLevel → Bool) (j k : Journal) :
    errorOutput shows (j ++ k) = j.errorOutput shows ++ k.errorOutput shows := by
  simp [errorOutput]

@[simp] theorem output_printed (text : String) : output [.printed text] = text := by simp [output]

theorem errorOutput_cons_printedError (shows : LogLevel → Bool) (text : String) (j : Journal) :
    errorOutput shows (.printedError text :: j) = text ++ j.errorOutput shows :=
  (errorOutput_append shows [.printedError text] j).trans
    (congrArg (· ++ errorOutput shows j) (by simp [errorOutput]))

end Journal

open Run

/-! ## What a run does to the host -/

section
variable {R : Host → Host → Prop} [Steady R]

/-- A run leads along a relation to which changes and privileges are all the same, if whoever is asked
does and so does the question. -/
theorem Orchestrator.steady_run {o : Orchestrator} (hallows : ∀ c, Allows R c)
    (hprivileges : AllowsPrivileges R)
    (hask : ∀ ask, o.confirmation = some ask → ∀ q, Leads R (ask q))
    (hasked : ∀ q answer, Leads R (note (.asked q answer))) (request : Request) (s : Session) :
    R s.host (o.sessionAfter request s).host := by
  have hbegin : Leads R (do o.validate request; o.confirm request : Run Unit) :=
    (o.steady_validate request).bind fun _ => o.steady_confirm hask hasked request
  have happly : Step.Leads R (o.apply request) :=
    o.steady_apply request (fun _ _ => hallows _) fun target =>
      o.capability.steady_provision hallows hprivileges request target
  have hends := o.ends_run request s
  unfold sessionAfter
  cases hrun : o.run request s with
  | ok report s' =>
      rw [hrun] at hends
      cases hends with
      | returned hbegins hdone => exact trans_of R (hbegin.of_ok hbegins) (happly.of_ok hdone)
  | error e s' =>
      rw [hrun] at hends
      cases hends with
      | unbegun hended => exact hbegin.of_error hended
      | failed hbegins hfailed => exact trans_of R (hbegin.of_ok hbegins) (happly.of_error hfailed)

theorem Capability.steady_ofHost (config : Config) : Leads R (Capability.ofHost config) := by
  have hsuited : Leads R
      (CgroupFilesystem.suited config.sudoExecutable config.commandTimeout) :=
    leads_get.bind fun _ => Leads.ite (leads_pure _)
      (Leads.ite (leads_pure _) (Leads.bind (steady_log _ _ _) fun _ => leads_pure _))
  exact leads_get.bind fun _ => Leads.ite (leads_pure _)
    (Leads.ite (hsuited.bind fun _ => leads_pure _) (leads_refuse _ _ _))

end

/-- A host has no capability only when nothing is known of its system. -/
theorem Capability.raises_ofHost (config : Config) :
    Raises (fun e => ∃ message, e = .refuse .configurationError message [])
      (Capability.ofHost config) := by
  have hsuited : Raises (fun e => ∃ message, e = .refuse .configurationError message [])
      (CgroupFilesystem.suited config.sudoExecutable config.commandTimeout) :=
    raises_get.bind fun _ => Raises.ite (raises_pure _)
      (Raises.ite (raises_pure _) ((raises_note _).bind fun _ => raises_pure _))
  exact raises_get.bind fun _ => Raises.ite (raises_pure _)
    (Raises.ite (hsuited.bind fun _ => raises_pure _) (raises_throw ⟨_, rfl⟩))

/-- The capability of a host. -/
theorem Capability.of_ofHost {config : Config} {h h' : Host} {c : Capability}
    (hhost : Capability.ofHost config h = .ok c h') :
    (h.system = "win32" ∧
      c = .windows (.netUser config.netExecutable config.commandTimeout) .lsa
        (.icacls config.icaclsExecutable config.commandTimeout)) ∨
    ∃ filesystem, c = .linux .posix filesystem config := by
  unfold Capability.ofHost at hhost
  rw [bind_eq_of_ok (show (get : Run Host) h = .ok h h from rfl)] at hhost
  split at hhost
  · rename_i hsystem
    cases hhost
    exact .inl ⟨hsystem, rfl⟩
  · split at hhost
    · obtain ⟨filesystem, _, -, hpure⟩ := bind_apply_eq_ok_iff.1 hhost
      cases hpure
      exact .inr ⟨filesystem, rfl⟩
    · exact nomatch hhost

/-- The session on which elevation has been proved at another time. -/
def Session.revalidated (s : Session) (validated : Bool) : Session :=
  { s with host := { s.host with elevationValidated := validated } }

/-- What of a text gets on the output. -/
def Host.shown (h : Host) (text : String) : String :=
  if h.outputFailure text = none then text else ""

namespace Fault

/-- A failure to which the command has an answer. -/
def isAnswered : Fault → Bool
  | .refused _ | .system _ | .interrupted => true
  | _ => false

/-- A failure that says that the operator called the run off. -/
def isCancellation : Fault → Bool
  | .refused r => r.kind == .operationCancelled
  | .interrupted => true
  | _ => false

end Fault

namespace CommandLine

/-! ## The run that a command makes -/

/-- The capability given to a command, or else that of the host. -/
def chosen (capability : Option Capability) (config : Config) (h : Host) : Option Capability :=
  match capability with
  | some c => some c
  | none =>
    match Capability.ofHost config h with
    | .ok c _ => some c
    | .error _ _ => none

section
variable {capability : Option Capability} {config : Config} {confirmation : Confirmation}
  {request : Request} {h : Host}

/-- How a command has a request run. -/
inductive Requested (capability : Option Capability) (config : Config) (confirmation : Confirmation)
    (request : Request) (h : Host) : EStateM.Result Fault Session Report → Prop where
  /-- There is nothing for a host of this kind. -/
  | unsupported {message : String} {h' : Host} (hchosen : chosen capability config h = none)
      (hproceeds : h.Proceeds h') :
      Requested capability config confirmation request h
        (.error (.refuse .configurationError message []) ⟨h', none⟩)
  | failed {c : Capability} {h' : Host} {e : Fault} {s : Session} (validated : Bool)
      (hchosen : chosen capability config h = some c) (hproceeds : h.Proceeds h')
      (hrun : Orchestrator.run { capability := c, config, confirmation := some confirmation } request
        ⟨h', none⟩ = .error e s) :
      Requested capability config confirmation request h (.error e (s.revalidated validated))
  | returned {c : Capability} {h' : Host} {report : Report} {s : Session} (validated : Bool)
      (hchosen : chosen capability config h = some c) (hproceeds : h.Proceeds h')
      (hrun : Orchestrator.run { capability := c, config, confirmation := some confirmation } request
        ⟨h', none⟩ = .ok report s) :
      Requested capability config confirmation request h (.ok report (s.revalidated validated))

theorem requested_runRequest :
    Requested capability config confirmation request h
      (runRequest capability config confirmation request ⟨h, none⟩) := by
  cases capability with
  | some c =>
      cases hrun : runRequest (some c) config confirmation request ⟨h, none⟩ with
      | ok report s =>
          exact .returned s.host.elevationValidated rfl (refl_of Host.Proceeds h) hrun
      | error e s =>
          exact .failed s.host.elevationValidated rfl (refl_of Host.Proceeds h) hrun
  | none =>
      have hsteady := Capability.steady_ofHost (R := Host.Proceeds) config
      unfold runRequest
      dsimp only
      cases hhost : Capability.ofHost config h with
      | error e h' =>
          obtain ⟨message, rfl⟩ := Capability.raises_ofHost config _ _ _ hhost
          have hchosen : chosen none config h = none := by rw [chosen, hhost]
          exact .unsupported hchosen (hsteady.of_error hhost)
      | ok c h' =>
          have hchosen : chosen none config h = some c := by rw [chosen, hhost]
          have hfresh : h'.Proceeds { h' with elevationValidated := false } :=
            .of_journal_eq rfl rfl
          have hproceeds := trans_of Host.Proceeds (hsteady.of_ok hhost) hfresh
          dsimp only
          cases hrun : Orchestrator.run { capability := c, config, confirmation := some confirmation }
              request ⟨{ h' with elevationValidated := false }, none⟩ with
          | ok report s => exact .returned h'.elevationValidated hchosen hproceeds hrun
          | error e s => exact .failed h'.elevationValidated hchosen hproceeds hrun

/-- The session in which a run ended. -/
def sessionOf : EStateM.Result Fault Session Report → Session
  | .ok _ s => s
  | .error _ s => s

/-- With a capability the command runs its request, on a host that is as it was but for what was looked
at to choose the capability. -/
theorem Requested.ran {c : Capability} {r : EStateM.Result Fault Session Report}
    (hr : Requested capability config confirmation request h r)
    (hchosen : chosen capability config h = some c) :
    ∃ h' validated, h.Proceeds h' ∧
      sessionOf r = (Orchestrator.sessionAfter
        { capability := c, config, confirmation := some confirmation } request ⟨h', none⟩).revalidated
          validated := by
  cases hr with
  | unsupported hnone hproceeds =>
      rw [hchosen] at hnone
      exact nomatch hnone
  | @failed c' h' e s validated hsome hproceeds hrun =>
      rw [hchosen] at hsome
      cases hsome
      exact ⟨h', validated, hproceeds, by rw [Orchestrator.sessionAfter, hrun]; rfl⟩
  | @returned c' h' report s validated hsome hproceeds hrun =>
      rw [hchosen] at hsome
      cases hsome
      exact ⟨h', validated, hproceeds, by rw [Orchestrator.sessionAfter, hrun]; rfl⟩

theorem proceeds_revalidated (s : Session) (validated : Bool) :
    s.host.Proceeds (s.revalidated validated).host := .of_journal_eq rfl rfl

theorem steady_requested {R : Host → Host → Prop} [Steady R] (hallows : ∀ c, Allows R c)
    (hprivileges : AllowsPrivileges R) (hask : ∀ q, Leads R (confirmation q))
    (hasked : ∀ q answer, Leads R (note (.asked q answer)))
    {r : EStateM.Result Fault Session Report}
    (hr : Requested capability config confirmation request h r) : R h (sessionOf r).host := by
  cases hchosen : chosen capability config h with
  | none =>
      cases hr with
      | unsupported hnone hproceeds => exact Steady.of_proceeds hproceeds
      | failed validated hsome => exact nomatch hchosen.symm.trans hsome
      | returned validated hsome => exact nomatch hchosen.symm.trans hsome
  | some c =>
      obtain ⟨h', validated, hproceeds, hsession⟩ := hr.ran hchosen
      rw [hsession]
      refine trans_of R (Steady.of_proceeds hproceeds)
        (trans_of R ?_ (Steady.of_proceeds (proceeds_revalidated _ validated)))
      refine Orchestrator.steady_run hallows hprivileges (fun ask hsome => ?_) hasked request
        ⟨h', none⟩
      cases hsome
      exact hask

/-- On the way a run prints only what the one who is asked prints. -/
theorem prints_requested {T : String → Prop} (hask : ∀ q, Leads (Host.Prints T) (confirmation q))
    {r : EStateM.Result Fault Session Report}
    (hr : Requested capability config confirmation request h r) :
    h.Prints T (sessionOf r).host :=
  steady_requested allows_prints allowsPrivileges_prints hask
    (fun q answer _ => ⟨[.asked q answer], rfl, by simp⟩) hr

end

/-! ## What is said of a failure -/

/-- How the command ends after a failure. -/
def endingOf (e : Fault) : Ending :=
  if e.isCancellation then .returned 130 else if e.isAnswered then .returned 1 else .escaped e

section
variable {e : Fault}

theorem isAnswered_of_isCancellation (hyes : e.isCancellation = true) : e.isAnswered = true := by
  cases e <;> first | rfl | exact nomatch hyes

theorem endingOf_eq_cancelled_iff : endingOf e = .returned 130 ↔ e.isCancellation = true := by
  unfold endingOf
  split_ifs <;> simp_all

theorem endingOf_eq_failed_iff :
    endingOf e = .returned 1 ↔ e.isAnswered = true ∧ e.isCancellation = false := by
  unfold endingOf
  split_ifs <;> simp_all

theorem endingOf_eq_escaped_iff {e' : Fault} :
    endingOf e = .escaped e' ↔ e = e' ∧ e.isAnswered = false := by
  unfold endingOf
  split_ifs with hcancel hreply
  · simp [isAnswered_of_isCancellation hcancel]
  · simp [hreply]
  · simp [hreply]

theorem endingOf_ne_returned_zero : endingOf e ≠ .returned 0 := by
  unfold endingOf
  split_ifs <;> simp

theorem endingOf_cases :
    endingOf e = .returned 1 ∨ endingOf e = .returned 130 ∨ ∃ e', endingOf e = .escaped e' := by
  unfold endingOf
  split_ifs
  · exact .inr (.inl rfl)
  · exact .inl rfl
  · exact .inr (.inr ⟨e, rfl⟩)

end

section
variable (runtime : Runtime)

/-- What is said of the failure of a run that ended in `s`, where `notice` is what is said of
privileges granted before it.  In the log a refusal is shown with where it came from. -/
def failureText (verbose : Bool) (s : Session) (e : Fault) (notice : String) : String :=
  match e with
  | .refused r =>
    if r.kind = .operationCancelled then r.message ++ "\n"
    else
      "error: " ++ r.message ++ "\n" ++
        (if r.resolution = "" then "" else "hint: " ++ r.resolution ++ "\n") ++ notice ++
        Journal.errorOutput (shows verbose) [.logged (runFailed runtime r s)]
  | .system e => "error: " ++ e.toString ++ "\n"
  | .interrupted => "\n" ++ cancelledText
  | _ => ""

/-- After a failure nothing is put on the output, and the failure is told on the other. -/
theorem conclude_tells (e : Fault) (s : Session) (verbose : Bool) :
    ∃ events : Journal, conclude runtime (.error e s) = (conclude.noted s events, endingOf e) ∧
      events.output = "" ∧
      events.errorOutput (shows verbose) = failureText runtime verbose s e
        (if s.report.any Report.restartRequired then restartAfterFailure else "") := by
  cases e with
  | refused r =>
      by_cases hkind : r.kind = .operationCancelled
      · have hending : endingOf (.refused r) = .returned 130 :=
          endingOf_eq_cancelled_iff.2 (beq_iff_eq.2 hkind)
        refine ⟨[.printedError (r.message ++ "\n")], ?_, rfl, ?_⟩
        · rw [hending, conclude, if_pos hkind]
        · rw [Journal.errorOutput_cons_printedError, failureText, if_pos hkind]
          exact String.append_empty
      · have hending : endingOf (.refused r) = .returned 1 :=
          endingOf_eq_failed_iff.2 ⟨rfl, beq_false_of_ne hkind⟩
        refine ⟨[.printedError (refusalText r s.report), .logged (runFailed runtime r s)], ?_, rfl, ?_⟩
        · rw [hending, conclude, if_neg hkind]
        · rw [Journal.errorOutput_cons_printedError, failureText, if_neg hkind]
          rfl
  | system e =>
      refine ⟨[.printedError ("error: " ++ e.toString ++ "\n")], rfl, rfl, ?_⟩
      rw [Journal.errorOutput_cons_printedError]
      exact String.append_empty
  | interrupted =>
      refine ⟨[.printedError "\n", .printedError cancelledText], rfl, rfl, ?_⟩
      rw [Journal.errorOutput_cons_printedError, Journal.errorOutput_cons_printedError]
      exact congrArg ("\n" ++ ·) String.append_empty
  | _ =>
      refine ⟨[], ?_, rfl, rfl⟩
      unfold conclude conclude.noted
      simp only [List.append_nil]
      rfl

/-- A failure that is no cancellation is told as an error. -/
theorem failureText_of_failed {e : Fault} (hone : endingOf e = .returned 1) (verbose : Bool)
    (s : Session) (notice : String) :
    ∃ rest, failureText runtime verbose s e notice = "error: " ++ e.message ++ "\n" ++ rest := by
  obtain ⟨hanswered, hno⟩ := endingOf_eq_failed_iff.1 hone
  cases e with
  | refused r =>
      have hkind : ¬ r.kind = .operationCancelled := ne_of_beq_false hno
      rw [failureText, if_neg hkind]
      simp only [Fault.message, String.append_assoc]
      exact ⟨_, rfl⟩
  | system e => exact ⟨"", String.append_empty.symm⟩
  | interrupted => exact nomatch hno
  | _ => exact nomatch hanswered

end

/-! ## What is said of a run that returned -/

/-- How the command ends when a text is all that is left to print. -/
def endingOfPrint (h : Host) (text : String) : Ending :=
  match h.outputFailure text with
  | none => .returned 0
  | some f => .escaped f.fault

theorem endingOfPrint_eq_returned_iff {h : Host} {text : String} {status : Nat} :
    endingOfPrint h text = .returned status ↔ status = 0 ∧ h.outputFailure text = none := by
  unfold endingOfPrint
  cases h.outputFailure text with
  | none => simp [eq_comm]
  | some f => simp

theorem endingOfPrint_eq_escaped_iff {h : Host} {text : String} {e : Fault} :
    endingOfPrint h text = .escaped e ↔ ∃ f, h.outputFailure text = some f ∧ f.fault = e := by
  unfold endingOfPrint
  cases h.outputFailure text <;> simp

/-- After a run that returned its summary is put on the output, as far as it gets there. -/
theorem conclude_sums_up (runtime : Runtime) (report : Report) (s : Session) :
    ∃ events : Journal,
      conclude runtime (.ok report s) =
        (conclude.noted s events, endingOfPrint s.host (report.summary ++ "\n")) ∧
      events.output = s.host.shown (report.summary ++ "\n") ∧
      ∀ shows, events.errorOutput shows = "" := by
  unfold endingOfPrint Host.shown
  cases hprint : s.host.outputFailure (report.summary ++ "\n") with
  | none =>
      refine ⟨[.printed (report.summary ++ "\n")], ?_, ?_, fun shows => rfl⟩
      · simp only [conclude, hprint]
      · rw [Journal.output_printed, if_pos rfl]
  | some f =>
      refine ⟨[], ?_, rfl, fun shows => rfl⟩
      simp only [conclude, hprint, conclude.noted, List.append_nil]

/-! ## What is on the outputs -/

/-- On the outputs stands what was printed and logged since `h`, of which `T` allows whatever was
printed, and after it `output` and `errorOutput`. -/
def Performance.Says (p : Performance) (T : String → Prop) (verbose : Bool) (h : Host) (s : Session)
    (output errorOutput : String) : Prop :=
  ∃ own : Journal, s.host.journal = h.journal ++ own ∧
    (∀ text, .printed text ∈ own ∨ .printedError text ∈ own → T text) ∧
    p.output = own.output ++ output ∧
    p.errorOutput = own.errorOutput (shows verbose) ++ errorOutput

theorem says_performance {T : String → Prop} {h : Host} {s : Session} (hprints : h.Prints T s.host)
    (verbose : Bool) (events : Journal) (ending : Ending) :
    (performance verbose h (conclude.noted s events) ending).Says T verbose h s events.output
      (events.errorOutput (shows verbose)) := by
  obtain ⟨own, hjournal, htexts⟩ := hprints
  have hnews : (conclude.noted s events).journal.drop h.journal.length = own ++ events := by
    rw [conclude.noted, hjournal, List.append_assoc, List.drop_left]
  refine ⟨own, hjournal, htexts, ?_, ?_⟩
  · unfold performance
    dsimp only
    rw [hnews, Journal.output_append]
  · unfold performance
    dsimp only
    rw [hnews, Journal.errorOutput_append]

/-! ## What the command makes of its run -/

section
variable {runtime : Runtime} {argv : List String} {capability : Option Capability}
  {confirmation : Confirmation} {h : Host} {settings : Settings} {request : Request}
  {T : String → Prop} {s : Session}

/-- A run that returned is told by its summary. -/
theorem perform_of_returned (hargv : parse runtime (platformOf capability h) argv = .ok settings)
    (hrequest : settings.request (platformOf capability h) = .ok request)
    (hprints : ∀ q, Leads (Host.Prints T) (confirmation q)) {report : Report}
    (hrun : runRequest capability { assumeYes := settings.yes } confirmation request ⟨h, none⟩ =
      .ok report s) :
    (perform runtime argv capability confirmation h).ending =
        endingOfPrint s.host (report.summary ++ "\n") ∧
      (perform runtime argv capability confirmation h).Says T settings.verbose h s
        (s.host.shown (report.summary ++ "\n")) "" := by
  have hown : h.Prints T s.host := prints_requested hprints (hrun ▸ requested_runRequest)
  obtain ⟨events, hconclude, houtput, hnothing⟩ := conclude_sums_up runtime report s
  have hsaid := says_performance hown settings.verbose events
    (endingOfPrint s.host (report.summary ++ "\n"))
  rw [houtput, hnothing] at hsaid
  rw [perform_of_request hargv hrequest, hrun, hconclude]
  exact ⟨rfl, hsaid⟩

/-- A run that failed is told by its failure, with the notice if the report calls for it. -/
theorem perform_of_failed (hargv : parse runtime (platformOf capability h) argv = .ok settings)
    (hrequest : settings.request (platformOf capability h) = .ok request)
    (hprints : ∀ q, Leads (Host.Prints T) (confirmation q)) {e : Fault}
    (hrun : runRequest capability { assumeYes := settings.yes } confirmation request ⟨h, none⟩ =
      .error e s) :
    (perform runtime argv capability confirmation h).ending = endingOf e ∧
      (perform runtime argv capability confirmation h).Says T settings.verbose h s ""
        (failureText runtime settings.verbose s e
          (if s.report.any Report.restartRequired then restartAfterFailure else "")) := by
  have hown : h.Prints T s.host := prints_requested hprints (hrun ▸ requested_runRequest)
  obtain ⟨events, hconclude, houtput, htold⟩ := conclude_tells runtime e s settings.verbose
  have hsaid := says_performance hown settings.verbose events (endingOf e)
  rw [houtput, htold] at hsaid
  rw [perform_of_request hargv hrequest, hrun, hconclude]
  exact ⟨rfl, hsaid⟩

end

end CommandLine

end Provisioning
