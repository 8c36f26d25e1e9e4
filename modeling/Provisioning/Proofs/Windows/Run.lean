/-
# `Provisioning.Proofs.Windows.Run` — the whole run

A run that is rejected or not confirmed leaves the stores as they were.  One
that begins (`Begins`) was accepted, and then returns with everything done or
stops in one of its stages.
-/
import Provisioning.Proofs.Consent
import Provisioning.Proofs.Windows.Apply
import Provisioning.Proofs.Windows.Validate

namespace Provisioning

namespace Orchestrator

open Run

variable {o : Orchestrator} {request : Request} {S : Stores}

/-- Confirming keeps the stores when whoever is asked leaves them alone. -/
theorem confirmKeepsStores_of_ask (htables : o.OnTables) (hkeeps : o.AskKeepsStores)
    (request : Request) : o.ConfirmKeepsStores request :=
  confirmKeepsStores_of_looksOnly (fun _ => by rw [htables]; trivial) hkeeps request

/-- On windows the confirmation refuses only what was declined. -/
theorem of_confirm_error (htables : o.OnTables) {h h' : Host} {e : Fault}
    (herror : o.confirm request h = .error e h') :
    e = .refused (Refusal.usual .operationCancelled) ∨
      ∃ ask q h₁, o.confirmation = some ask ∧ ask q h₁ = .error e h' := by
  obtain ⟨h₁, hok, -⟩ | ⟨e', h₁, herror', hrefused⟩ := confirm_cases o request h
  · rw [herror] at hok
    exact nomatch hok
  · rw [herror] at herror'
    cases herror'
    cases hrefused with
    | undescribed hask hplan =>
        rw [htables] at hplan
        exact nomatch hplan
    | @unanswered ask plan e h₂ h₃ hask hplan hne hfailed =>
        exact .inr ⟨ask, _, h₂, hask.2, hfailed⟩
    | declined hask hplan hne hno => exact .inl rfl

theorem stores_eq_of_ended (htables : o.OnTables) (hkeeps : o.ConfirmKeepsStores request)
    (s : Session) :
    (∀ h, o.Begins request s h → h.stores = s.host.stores) ∧
      ∀ e h, (do o.validate request; o.confirm request : Run Unit) s.host = .error e h →
        h.stores = s.host.stores :=
  stores_eq_of_confirm (by rw [htables]; trivial) hkeeps

/-- A run begins only with an acceptable request, and in the stores that it found. -/
theorem of_begins (htables : o.OnTables) (hkeeps : o.ConfirmKeepsStores request) {s : Session}
    {h : Host} (hbegins : o.Begins request s h) :
    h.stores = s.host.stores ∧ Accepted request s.host.stores := by
  obtain ⟨_, h₁, hvalidate, -⟩ := bind_apply_eq_ok_iff.1 hbegins
  exact ⟨(stores_eq_of_ended htables hkeeps s).1 h hbegins, accepted_of_validate htables hvalidate⟩

/-- What becomes of a run: it ends before the host may be changed, and then the stores are as they
were; or it begins. -/
theorem begins_or_stores_eq (htables : o.OnTables) (hkeeps : o.ConfirmKeepsStores request)
    (s : Session) :
    (∃ e h, (∀ h', ¬ o.Begins request s h') ∧ o.run request s = .error e ⟨h, s.report⟩ ∧
      h.stores = s.host.stores) ∨
    ∃ h, o.Begins request s h := by
  cases hended : (do o.validate request; o.confirm request : Run Unit) s.host with
  | ok u h => exact .inr ⟨h, hended⟩
  | error e h =>
      refine .inl ⟨e, h, fun h' hbegins => ?_, by rw [run, hended],
        (stores_eq_of_ended htables hkeeps s).2 e h hended⟩
      rw [Begins, hended] at hbegins
      cases hbegins

theorem apply_cases (htables : o.OnTables) (accepted : Accepted request S) {h : Host}
    (hS : h.stores = S) :
    (∃ p, o.apply request ⟨h, { platform := o.capability.name }⟩ = .ok () p ∧ Ready request S ∧
      p.host.stores = S.complete request ∧ p.report.Tells request S) ∨
    ∃ e p phase, o.apply request ⟨h, { platform := o.capability.name }⟩ = .error e p ∧
      Stopped request S phase e p.host.stores := by
  have hseen : Progress.seen ⟨h, { platform := o.capability.name }⟩ =
      (S, { platform := o.capability.name }) := by rw [← hS]; rfl
  obtain ⟨ready, R, hR, hgives⟩ | ⟨phase, P, S', R, hfails, hstopped⟩ :=
    apply_outcome htables accepted o.capability.name
  · obtain ⟨p, hp, hseen'⟩ := hgives _ hseen
    obtain ⟨hS', hR'⟩ := Prod.mk.inj hseen'
    exact .inl ⟨p, hp, ready, hS', hR' ▸ hR⟩
  · obtain ⟨e, p, hp, he, hseen'⟩ := hfails _ hseen
    obtain ⟨hS', -⟩ := Prod.mk.inj hseen'
    exact .inr ⟨e, p, phase, hp, hS' ▸ hstopped e he⟩

/-- A run that returns was ready to, and leaves everything done and a report that tells. -/
theorem complete_of_run (htables : o.OnTables) (hkeeps : o.ConfirmKeepsStores request)
    {s s' : Session} {report : Report} (hrun : o.run request s = .ok report s') :
    (Accepted request s.host.stores ∧ Ready request s.host.stores ∧
      report.Tells request s.host.stores) ∧
    s'.host.stores = s.host.stores.complete request := by
  obtain ⟨e, h, -, herror, -⟩ | ⟨h, hbegins⟩ := begins_or_stores_eq htables hkeeps s
  · rw [herror] at hrun
    exact nomatch hrun
  · obtain ⟨hS, accepted⟩ := of_begins htables hkeeps hbegins
    rw [run_eq_of_begins hbegins] at hrun
    obtain ⟨p, hp, ready, hS', hR⟩ | ⟨e, p, phase, hp, -⟩ := apply_cases htables accepted hS
    · rw [hp] at hrun
      cases hrun
      exact ⟨⟨accepted, ready, hR⟩, hS'⟩
    · rw [hp] at hrun
      exact nomatch hrun

/-! ## Runs that are confirmed -/

/-- The request is confirmed on every host, and confirming it leaves the stores as they are. -/
def Confirms (o : Orchestrator) (request : Request) : Prop :=
  ∀ h, ∃ h', o.confirm request h = .ok () h' ∧ h'.stores = h.stores

/-- It is if whoever is asked says yes, and leaves the stores alone. -/
theorem confirms_of_ask (htables : o.OnTables)
    (hyes : ∀ ask, o.confirmation = some ask →
      ∀ q h, ∃ h', ask q h = .ok true h' ∧ h'.stores = h.stores)
    (request : Request) : o.Confirms request := by
  have hkeeps : o.AskKeepsStores := by
    intro ask hask q h
    obtain ⟨h', hok, hstores⟩ := hyes ask hask q h
    rw [hostAfter_of_ok hok, hstores]
  intro h
  obtain ⟨h', hok, hconsent⟩ | ⟨e, h', -, hrefused⟩ := confirm_cases o request h
  · exact ⟨h', hok, hconsent.stores_eq (by rw [htables]; trivial) hkeeps⟩
  · cases hrefused with
    | undescribed hask hplan =>
        rw [htables] at hplan
        exact nomatch hplan
    | @unanswered ask plan e h₁ h₂ hask hplan hne hfailed =>
        obtain ⟨h₃, hok, -⟩ := hyes ask hask.2 (question plan) h₁
        rw [hok] at hfailed
        exact nomatch hfailed
    | @declined ask plan h₁ h₂ hask hplan hne hno =>
        obtain ⟨h₃, hok, -⟩ := hyes ask hask.2 (question plan) h₁
        rw [hok] at hno
        exact nomatch hno

theorem Confirms.keepsStores (hconfirms : o.Confirms request) : o.ConfirmKeepsStores request := by
  intro h
  obtain ⟨h', hok, hstores⟩ := hconfirms h
  rw [hostAfter_of_ok hok, hstores]

/-- A run returns when the request is acceptable and nothing keeps it from returning. -/
theorem run_returns (htables : o.OnTables) (hconfirms : o.Confirms request) {s : Session}
    (accepted : Accepted request s.host.stores) (ready : Ready request s.host.stores) :
    ∃ report s', o.run request s = .ok report s' ∧
      s'.host.stores = s.host.stores.complete request ∧
      report.changes = changesOf request s.host.stores := by
  obtain ⟨h, hvalidate, hstores⟩ := gives_validate htables accepted s.host rfl
  obtain ⟨h', hconfirm, hstores'⟩ := hconfirms h
  have hbegins : o.Begins request s h' := by
    rw [Begins, bind_apply_of_ok hvalidate, hconfirm]
  rw [run_eq_of_begins hbegins]
  obtain ⟨p, hp, -, hS, hreport⟩ | ⟨e, p, phase, -, hstopped⟩ :=
    apply_cases htables accepted (hstores'.trans hstores)
  · rw [hp]
    exact ⟨p.report, _, rfl, hS, hreport.changes⟩
  · exact absurd ready hstopped.not_ready

/-- However a run ends, it leaves one of its stages, and the first unless the request is
acceptable. -/
theorem stage_of_run (htables : o.OnTables) (hkeeps : o.ConfirmKeepsStores request) (s : Session) :
    (o.sessionAfter request s).host.stores = s.host.stores ∨
      Accepted request s.host.stores ∧
        Stage request s.host.stores (o.sessionAfter request s).host.stores := by
  unfold sessionAfter
  obtain ⟨e, h, -, hrun, hstores⟩ | ⟨h, hbegins⟩ := begins_or_stores_eq htables hkeeps s
  · rw [hrun]
    exact .inl hstores
  · obtain ⟨hS, accepted⟩ := of_begins htables hkeeps hbegins
    refine .inr ⟨accepted, ?_⟩
    rw [run_eq_of_begins hbegins]
    obtain ⟨p, hp, -, hS', -⟩ | ⟨e, p, phase, hp, hstopped⟩ := apply_cases htables accepted hS
    · rw [hp]
      exact hS' ▸ .complete
    · rw [hp]
      exact hstopped.stage

end Orchestrator

end Provisioning
