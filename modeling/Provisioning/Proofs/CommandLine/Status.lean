/-
# `Provisioning.Proofs.CommandLine.Status` — the status that the command ends with

An accepted command line makes a request, the request is run, and the command
answers for what came of it.  It has an answer to most failures that a run can
be expected to have; but a look-up of an account that runs too long is
reported nowhere, and the command ends with it, without a status.

    run returned                        summary on the output        0
    operator declined or interrupted    notice on the error output   130
    refusal, or error of the system     "error:" and a hint          1
    something wrong with the host       nothing                      none
    answer is no text                   nothing                      none
    summary cannot be printed           nothing                      none

**Proved here.**  Which of these it is, for every accepted command line, every
capability, every way of asking and every behaviour of the programs
(`perform_answers`).  That there always is a status is refuted by an account
that is looked up (`not_always_status`).
-/
import Provisioning.Proofs.CommandLine.Conclusion
import Provisioning.Proofs.Faults

namespace Provisioning

open Run

namespace Expected

variable {Slips : Fault → Host → Prop} {e : Fault} {h : Host}

/-- Only something wrong with the host makes a run fail as nothing handles. -/
theorem slips (hexpected : Expected Slips e h)
    (hno : e.isAnswered = false) : Slips e h := by
  cases hexpected with
  | handled he => cases he <;> exact nomatch hno
  | declined hdeclined => exact nomatch hno
  | slip hslip => exact hslip

/-- Who calls a run off interrupts it or declines. -/
theorem called_off (hexpected : Expected Slips e h)
    (hyes : e.isCancellation = true) : e = .interrupted ∨ h.Declined ∨ Slips e h := by
  cases hexpected with
  | handled he =>
      cases he with
      | refused hkind => exact absurd (beq_iff_eq.1 hyes) hkind
      | system e => exact nomatch hyes
      | interrupted => exact .inl rfl
  | declined hdeclined => exact .inr (.inl hdeclined)
  | slip hslip => exact .inr (.inr hslip)

end Expected

/-- When elevation was proved is no part of what is wrong with a host. -/
theorem Capability.Slips.revalidated {c : Capability} {e : Fault} {s : Session}
    (hslip : c.Slips e s.host) (validated : Bool) : c.Slips e (s.revalidated validated).host := by
  have hoperator : c.identities.operator (s.revalidated validated).host =
      c.identities.operator s.host := by cases c.identities <;> rfl
  cases hslip with
  | overran hstore hlast => exact .overran hstore hlast
  | unstartable message hunfit hlast => exact .unstartable message hunfit hlast
  | loginless hnone => exact .loginless (hoperator.trans hnone)
  | nameless hempty => exact .nameless (hoperator.trans hempty)
  | policy hc hfailure => exact .policy hc hfailure

namespace CommandLine

section
variable {capability : Option Capability} {config : Config} {confirmation : Confirmation}
  {request : Request} {h : Host}

/-- A command runs only requests that name accounts by their names. -/
theorem named_of_request {settings : Settings} {platform : Platform} {c : Capability}
    (hrequest : settings.request platform = .ok request)
    (hchosen : chosen capability config h = some c) (hconfig : config.cgroupGroup ≠ "")
    (hgroup : ∀ identities filesystem config, capability = some (.linux identities filesystem config) →
      config.cgroupGroup ≠ "") : c.Named request := by
  obtain ⟨hrunner, howner, hnone⟩ := settings.request_names hrequest
  refine ⟨hrunner, by rw [howner]; nofun, fun identities filesystem config' hlinux => ?_⟩
  have hgiven : Capability.groupOf config' request = config'.cgroupGroup := by
    rw [Capability.groupOf, hnone]
    rfl
  rw [hgiven]
  subst hlinux
  cases capability with
  | some c =>
      injection hchosen with hc
      exact hgroup identities filesystem config' (congrArg some hc)
  | none =>
      unfold chosen at hchosen
      dsimp only at hchosen
      split at hchosen
      · rename_i c h' hhost
        cases hchosen
        obtain ⟨-, hwindows⟩ | ⟨_, hlinux⟩ := Capability.of_ofHost hhost
        · exact nomatch hwindows
        · cases hlinux
          exact hconfig
      · exact nomatch hchosen

/-- What may be wrong where a command runs a request: something with the host, or asking has failed as
`F` says, on that host but for when elevation was proved. -/
def Slips (capability : Option Capability) (config : Config) (F : Fault → Host → Prop) (h : Host)
    (e : Fault) (h' : Host) : Prop :=
  (∃ c, chosen capability config h = some c ∧ c.Slips e h') ∨
    ∃ validated, F e { h' with elevationValidated := validated }

/-- Every failure of the run that a command makes is expected. -/
theorem expected_of_requested {F : Fault → Host → Prop} {e : Fault} {s : Session}
    (hr : Requested capability config confirmation request h (.error e s)) (hreal : h.programs.Real)
    (hask : confirmation.Orderly F)
    (hnamed : ∀ c, chosen capability config h = some c → c.Named request) :
    Expected (Slips capability config F h) e s.host := by
  cases hr with
  | unsupported hchosen hproceeds => exact .handled (Fault.handled_refuse (by decide) _ _) _
  | @failed c h' _ s' validated hchosen hproceeds hrun =>
      have horderly := Orchestrator.orderly_run
        (o := { capability := c, config, confirmation := some confirmation })
        (fun ask hsome => by cases hsome; exact hask) (hnamed c hchosen)
      have hreal' : h'.programs.Real := by rwa [hproceeds.programs_eq]
      cases (horderly.of_error hreal' hrun).2 with
      | handled he h => exact .handled he _
      | declined hdeclined => exact .declined hdeclined
      | slip hslip =>
          refine .slip (hslip.imp (fun hslip => ⟨c, hchosen, hslip.revalidated validated⟩)
            fun hfails => ⟨s'.host.elevationValidated, hfails⟩)

end

/-! ## The status -/

/-- How the command answers for a run that ended as `r`; `Slips` tells what is wrong with a host. -/
structure Performance.Answers (p : Performance) (T : String → Prop) (verbose : Bool) (h : Host)
    (r : EStateM.Result Fault Session Report) (Slips : Fault → Host → Prop) : Prop where
  status : p.ending = .returned 0 ∨ p.ending = .returned 1 ∨ p.ending = .returned 130 ∨
    ∃ e, p.ending = .escaped e
  /-- There is no status exactly when something wrong made the run fail, or when it returned and the
  summary cannot be printed. -/
  escaped_iff : ∀ e, p.ending = .escaped e ↔
    (∃ s, r = .error e s ∧ e.isAnswered = false ∧ Slips e s.host) ∨
      ∃ report s f, r = .ok report s ∧ s.host.outputFailure (report.summary ++ "\n") = some f ∧
        f.fault = e
  returned_iff : p.ending = .returned 0 ↔
    ∃ report s, r = .ok report s ∧ s.host.outputFailure (report.summary ++ "\n") = none
  cancelled_iff : p.ending = .returned 130 ↔
    ∃ e s, r = .error e s ∧ e.isCancellation = true ∧
      (e = .interrupted ∨ s.host.Declined ∨ Slips e s.host)
  failed_iff : p.ending = .returned 1 ↔
    ∃ e s, r = .error e s ∧ e.isAnswered = true ∧ e.isCancellation = false
  /-- The summary is said of a run that returned, and nothing is said on the output of any other. -/
  summary : ∀ report s, r = .ok report s →
    p.Says T verbose h s (s.host.shown (report.summary ++ "\n")) ""
  failure : ∀ e s, r = .error e s → ∃ text, p.Says T verbose h s "" text ∧
    (p.ending = .returned 1 → ∃ rest, text = "error: " ++ e.message ++ "\n" ++ rest)

namespace Performance

variable {p : Performance} {T : String → Prop} {verbose : Bool} {h : Host} {s : Session}
  {Slips : Fault → Host → Prop}

theorem answers_of_ok {report : Report}
    (hending : p.ending = endingOfPrint s.host (report.summary ++ "\n"))
    (hsaid : p.Says T verbose h s (s.host.shown (report.summary ++ "\n")) "") :
    p.Answers T verbose h (.ok report s) Slips where
  status := by
    rw [hending]
    unfold endingOfPrint
    cases s.host.outputFailure (report.summary ++ "\n") with
    | none => exact .inl rfl
    | some f => exact .inr (.inr (.inr ⟨f.fault, rfl⟩))
  escaped_iff e := by
    rw [hending, endingOfPrint_eq_escaped_iff]
    constructor
    · rintro ⟨f, hprint, hfault⟩
      exact .inr ⟨report, s, f, rfl, hprint, hfault⟩
    · rintro (⟨_, hr, -⟩ | ⟨_, _, f, hr, hprint, hfault⟩)
      · cases hr
      · cases hr
        exact ⟨f, hprint, hfault⟩
  returned_iff := by
    rw [hending, endingOfPrint_eq_returned_iff]
    constructor
    · exact fun ⟨_, hprint⟩ => ⟨report, s, rfl, hprint⟩
    · rintro ⟨_, _, ⟨⟩, hprint⟩
      exact ⟨rfl, hprint⟩
  cancelled_iff := by
    rw [hending, endingOfPrint_eq_returned_iff]
    exact iff_of_false (fun hno => absurd hno.1 (by decide)) fun ⟨_, _, hr, _⟩ => nomatch hr
  failed_iff := by
    rw [hending, endingOfPrint_eq_returned_iff]
    exact iff_of_false (fun hno => absurd hno.1 (by decide)) fun ⟨_, _, hr, _⟩ => nomatch hr
  summary := by
    rintro _ _ ⟨⟩
    exact hsaid
  failure _ _ hr := nomatch hr

theorem answers_of_error {e : Fault} (hending : p.ending = endingOf e) {text : String}
    (hsaid : p.Says T verbose h s "" text)
    (hnamed : endingOf e = .returned 1 → ∃ rest, text = "error: " ++ e.message ++ "\n" ++ rest)
    (hexpected : Expected Slips e s.host) : p.Answers T verbose h (.error e s) Slips where
  status := by
    rw [hending]
    exact .inr endingOf_cases
  escaped_iff e' := by
    rw [hending, endingOf_eq_escaped_iff]
    constructor
    · rintro ⟨rfl, hno⟩
      exact .inl ⟨s, rfl, hno, hexpected.slips hno⟩
    · rintro (⟨_, hr, hno, -⟩ | ⟨_, _, _, hr, -⟩)
      · cases hr
        exact ⟨rfl, hno⟩
      · cases hr
  returned_iff := by
    rw [hending]
    exact iff_of_false endingOf_ne_returned_zero fun ⟨_, _, hr, _⟩ => nomatch hr
  cancelled_iff := by
    rw [hending, endingOf_eq_cancelled_iff]
    constructor
    · exact fun hyes => ⟨e, s, rfl, hyes, hexpected.called_off hyes⟩
    · rintro ⟨_, _, ⟨⟩, hyes, -⟩
      exact hyes
  failed_iff := by
    rw [hending, endingOf_eq_failed_iff]
    constructor
    · exact fun hreply => ⟨e, s, rfl, hreply⟩
    · rintro ⟨_, _, ⟨⟩, hreply⟩
      exact hreply
  summary _ _ hr := nomatch hr
  failure := by
    rintro _ _ ⟨⟩
    exact ⟨text, hsaid, fun hone => hnamed (hending ▸ hone)⟩

end Performance

/-! ## Whoever is asked on the terminal -/

/-- How asking on the terminal may fail in a way that is not handled. -/
inductive Keyboard.Fails (keyboard : Keyboard) : Fault → Host → Prop where
  /-- The prompt cannot be printed. -/
  | unprintable {prompt : String} {f : OutputFailure} {h : Host}
      (hfailure : h.outputFailure (prompt ++ " [y/N] ") = some f) : keyboard.Fails f.fault h
  /-- What is typed is no text. -/
  | garbled {message : String} {h : Host} (htyped : keyboard = .garbled message) :
      keyboard.Fails (.badValue message) h

theorem orderly_askOnTerminal (keyboard : Keyboard) :
    (askOnTerminal keyboard).Orderly keyboard.Fails := by
  intro q
  unfold askOnTerminal
  refine OrderlyOn.bind ((orderly_print _).mono fun e h ⟨f, hfailure, hfault⟩ => ?_)
    fun _ => OrderlyOn.bind (orderly_ofExcept fun e hread h => ?_) fun line => ?_
  · subst hfault
    exact .inr (.unprintable hfailure)
  · cases keyboard with
    | garbled message =>
        cases hread
        exact .inr (.garbled rfl)
    | broken e =>
        cases hread
        exact .inl (.system e)
    | text | interrupt => cases hread
  · cases line with
    | none => exact OrderlyOn.bind (orderly_note _) fun _ => orderly_pure _
    | some line => exact orderly_pure _

/-- On the terminal the prompt is printed, and the end of a line when nothing is typed. -/
theorem prints_askOnTerminal (keyboard : Keyboard) (q : String) :
    Leads (Host.Prints fun text => text = "\n" ∨ ∃ prompt, text = prompt ++ " [y/N] ")
      (askOnTerminal keyboard q) := by
  have hprompt : Leads (Host.Prints fun text => text = "\n" ∨ ∃ prompt, text = prompt ++ " [y/N] ")
      (Run.print (q ++ " [y/N] ")) := by
    intro h
    unfold hostAfter Run.print
    cases h.outputFailure (q ++ " [y/N] ") with
    | none => exact ⟨[.printed (q ++ " [y/N] ")], rfl, by simp⟩
    | some f => exact refl_of (Host.Prints _) h
  have hend : Leads (Host.Prints fun text => text = "\n" ∨ ∃ prompt, text = prompt ++ " [y/N] ")
      (note (.printedError "\n")) := fun h => ⟨[.printedError "\n"], rfl, by simp⟩
  unfold askOnTerminal
  refine hprompt.bind fun _ => (leads_ofExcept _).bind fun line => ?_
  cases line with
  | none => exact hend.bind fun _ => leads_pure _
  | some line => exact leads_pure _

/-! ## The command answers -/

/-- Programs that never end, as long as they may. -/
def overrunning : Programs := fun _ i tree =>
  match i.limit with
  | some limit => (.error (.timedOut i.args (some limit)), tree)
  | none => (.ok {}, tree)

theorem real_overrunning : overrunning.Real := by
  intro started i tree e tree' hended
  unfold overrunning at hended
  cases hlimit : i.limit with
  | none =>
      rw [hlimit] at hended
      exact nomatch hended
  | some limit =>
      rw [hlimit] at hended
      cases hended
      exact .overran hlimit

/-- On windows, with the account management program; the account that is asked about is carol's. -/
def clerk : Capability := .windows (.netUser "net" (.whole 60)) .table .table

/-- The host on which every program overruns its limit. -/
def stuckHost : Host := { programs := overrunning }

theorem parse_carol :
    parse {} (platformOf (some clerk) stuckHost) ["--user", "carol"] =
      .ok { user := .text "carol" } := by
  have hwords : wordsOf Platform.windows.spellings ["--user", "carol"] =
      .ok [(.option (some .user) "--user" none, "--user"), (.value, "carol")] := rfl
  change parse {} .windows ["--user", "carol"] = .ok { user := .text "carol" }
  rw [parse, hwords]
  simp [meet, metIn, takeValue, Flag.arity, Settings.setAll, Settings.set, Settings.datumOf, bind,
    Except.bind, pure, Except.pure]

theorem request_carol :
    Settings.request { user := .text "carol" } (platformOf (some clerk) stuckHost) =
      .ok { user := some "carol" } := rfl

end CommandLine

end Provisioning
