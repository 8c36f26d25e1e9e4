/-
# `Provisioning.Proofs.Kept` — whose report is kept

A session is used for one call after another, each with a request and an
answer of its own, and it keeps one report.  Whoever reads it after a call has
failed takes it for the progress of that call.

    the call begins              its report takes the place of the one kept, and
                                 stays whether the call returns or fails
    it is rejected or declined   the report kept stays, if there is one

What a call has to report of itself is what it leaves where no report was kept
before (`ownReport`), and nothing if it does not begin.

**Stated here.**  After any calls the report kept is that of the latest of
them that began (`report_afterCalls`).  So it is the last call's own exactly
if that one began, or no call before it did (`kept_report_is_own_iff`).
-/
import Provisioning.Proofs.Consent

namespace Provisioning

namespace Orchestrator

/-- One call: a request, and who is asked to confirm it. -/
structure Call where
  request : Request
  asked : Option Confirmation := none

/-- What drives runs, when someone else is asked. -/
def asking (o : Orchestrator) (asked : Option Confirmation) : Orchestrator :=
  { o with confirmation := asked }

/-- The session after a call. -/
def afterCall (o : Orchestrator) (s : Session) (c : Call) : Session :=
  (o.asking c.asked).sessionAfter c.request s

/-- The session after several calls. -/
def afterCalls (o : Orchestrator) (cs : List Call) (s : Session) : Session := cs.foldl o.afterCall s

/-- The call gets past its validation and its confirmation. -/
def CallBegins (o : Orchestrator) (h : Host) (c : Call) : Prop :=
  ∃ h', (o.asking c.asked).Begins c.request ⟨h, none⟩ h'

/-- How far a call gets that begins on the host `h`. -/
def progressOf (o : Orchestrator) (c : Call) (h : Host) : Progress :=
  ((o.asking c.asked).apply c.request).progressAfter ⟨h, { platform := o.capability.name }⟩

/-- The report of the call itself: what is kept after it where nothing was kept before. -/
def ownReport (o : Orchestrator) (h : Host) (c : Call) : Option Report :=
  (o.afterCall ⟨h, none⟩ c).report

/-- The reports that the calls of a list have of themselves, in order. -/
def ownReports (o : Orchestrator) : List Call → Host → List Report
  | [], _ => []
  | c :: cs, h => (o.ownReport h c).toList ++ ownReports o cs (o.afterCall ⟨h, none⟩ c).host

variable {o : Orchestrator} {h : Host} {c : Call}

/-! ## One call -/

/-- A call that does not begin leaves the report as it was kept. -/
theorem afterCall_of_not_begins (hnot : ¬ o.CallBegins h c) (kept : Option Report) :
    o.afterCall ⟨h, kept⟩ c = ⟨(o.afterCall ⟨h, none⟩ c).host, kept⟩ := by
  unfold afterCall sessionAfter
  cases hended : (do (o.asking c.asked).validate c.request; (o.asking c.asked).confirm c.request :
      Run Unit) h with
  | ok u h' => exact absurd ⟨h', hended⟩ hnot
  | error e h' => simp only [run, hended]

/-- A call that begins keeps its own report, whatever was kept before. -/
theorem afterCall_of_begins {h' : Host}
    (hbegins : (o.asking c.asked).Begins c.request ⟨h, none⟩ h') (kept : Option Report) :
    o.afterCall ⟨h, kept⟩ c = ⟨(o.progressOf c h').host, some (o.progressOf c h').report⟩ :=
  sessionAfter_of_begins (s := ⟨h, kept⟩) hbegins

/-- A call has something to report exactly if it begins. -/
theorem ownReport_eq_none_iff : o.ownReport h c = none ↔ ¬ o.CallBegins h c := by
  unfold ownReport
  constructor
  · rintro hnone ⟨h', hbegins⟩
    rw [afterCall_of_begins hbegins none] at hnone
    exact nomatch hnone
  · intro hnot
    rw [afterCall_of_not_begins hnot none]

/-- After a call the session keeps the call's own report, or else the one that it kept before; and
what the call does to the host does not depend on that one. -/
theorem afterCall_eq (o : Orchestrator) (h : Host) (kept : Option Report) (c : Call) :
    o.afterCall ⟨h, kept⟩ c = ⟨(o.afterCall ⟨h, none⟩ c).host, (o.ownReport h c).or kept⟩ := by
  by_cases hbegins : o.CallBegins h c
  · obtain ⟨h', hbegins⟩ := hbegins
    rw [ownReport, afterCall_of_begins hbegins, afterCall_of_begins hbegins]
    rfl
  · rw [afterCall_of_not_begins hbegins kept, ownReport_eq_none_iff.2 hbegins]
    rfl

/-! ## One call after another -/

/-- Of several calls the latest that began has its report kept. -/
theorem report_afterCalls (o : Orchestrator) (cs : List Call) :
    ∀ (h : Host) (kept : Option Report),
      (o.afterCalls cs ⟨h, kept⟩).report = (o.ownReports cs h).getLast?.or kept := by
  induction cs with
  | nil =>
      intro h kept
      rfl
  | cons c cs ih =>
      intro h kept
      have hstep : o.afterCalls (c :: cs) ⟨h, kept⟩ =
          o.afterCalls cs ⟨(o.afterCall ⟨h, none⟩ c).host, (o.ownReport h c).or kept⟩ := by
        rw [afterCalls, List.foldl_cons, afterCall_eq o h kept c]
        rfl
      rw [hstep, ih, ownReports, List.getLast?_append, Option.or_assoc]
      congr 2
      cases o.ownReport h c <;> rfl

/-- **Whose report is kept.**  A session that began with none is used for several calls, and then for
another.  If that one begins, the report kept is the one that it wrote, and the one it returns if it
does.  If it is rejected or declined it has none, and the report kept is that of the latest call before
it that began.  So what is kept after the last call is its own report exactly if it began, or none
before it did. -/
theorem kept_report_is_own_iff (o : Orchestrator) (h : Host) (cs : List Call) (c : Call) :
    let before := o.afterCalls cs ⟨h, none⟩
    let kept := (o.afterCall before c).report
    (∀ h', (o.asking c.asked).Begins c.request before h' →
      o.ownReport before.host c = some (o.progressOf c h').report ∧
        kept = some (o.progressOf c h').report) ∧
    (∀ R s', (o.asking c.asked).run c.request before = .ok R s' →
      o.CallBegins before.host c ∧ kept = some R) ∧
    (¬ o.CallBegins before.host c →
      o.ownReport before.host c = none ∧ kept = (o.ownReports cs h).getLast?) ∧
    (kept = o.ownReport before.host c ↔
      o.CallBegins before.host c ∨ o.ownReports cs h = []) := by
  intro before kept
  have hbefore : before.report = (o.ownReports cs h).getLast? := by
    rw [report_afterCalls, Option.or_none]
  have hkept : kept = (o.ownReport before.host c).or (o.ownReports cs h).getLast? := by
    rw [← hbefore]
    exact congrArg Session.report (afterCall_eq o before.host before.report c)
  have hown : ∀ h', (o.asking c.asked).Begins c.request before h' →
      o.ownReport before.host c = some (o.progressOf c h').report :=
    fun h' hbegins => congrArg Session.report (afterCall_of_begins hbegins none)
  refine ⟨fun h' hbegins => ⟨hown h' hbegins, ?_⟩, fun R s' hrun => ?_, fun hnot => ?_, ?_⟩
  · rw [hkept, hown h' hbegins]
    rfl
  · have hended := ends_run (o.asking c.asked) c.request before
    have hafter : o.afterCall before c = s' := by rw [afterCall, sessionAfter, hrun]
    rw [hrun] at hended
    cases hended with
    | returned hbegins happly => exact ⟨⟨_, hbegins⟩, congrArg Session.report hafter⟩
  · have hnone := ownReport_eq_none_iff.2 hnot
    exact ⟨hnone, by rw [hkept, hnone]; rfl⟩
  · by_cases hbegins : o.CallBegins before.host c
    · obtain ⟨h', hbegins'⟩ := hbegins
      rw [hkept, hown h' hbegins']
      exact iff_of_true rfl (.inl ⟨h', hbegins'⟩)
    · have hnone := ownReport_eq_none_iff.2 hbegins
      rw [hkept, hnone, Option.none_or, List.getLast?_eq_none_iff]
      exact ⟨.inr, fun hor => hor.resolve_left hbegins⟩

/-- A call that was declined may be followed by the report of an earlier one, which says that a
restart is due. -/
theorem not_always_own_report :
    ¬ ∀ (o : Orchestrator) (h : Host) (cs : List Call) (c : Call),
      (o.afterCall (o.afterCalls cs ⟨h, none⟩) c).report =
        o.ownReport (o.afterCalls cs ⟨h, none⟩).host c := by
  intro hown
  let o : Orchestrator := { capability := .windows .table .table .table }
  let h : Host := { accounts := .ofNames ["svc"] "operator" }
  let request : Request := { runnerRequested := true, runner := some "svc" }
  let granted : Call := ⟨request, some (fixedAnswer true [])⟩
  let declined : Call := ⟨{ createUser := some "carol", password := some ⟨"pw"⟩ },
    some (fixedAnswer false [])⟩
  have hstale : (o.afterCall (o.afterCalls [granted] ⟨h, none⟩) declined).report.any
      Report.restartRequired = true := by decide +kernel
  rw [hown o h [granted] declined] at hstale
  revert hstale
  decide +kernel

end Orchestrator

end Provisioning
