/-
# `Provisioning.Proofs.Host.Outcome` — what a step makes of what is seen

The backends kept in memory are told apart by the stores of the host alone:
what a step on them ends with depends on nothing else, and the journal that it
leaves behind is of no consequence for later steps.  So the state is looked at
through a view, and a step has one outcome for all states that look alike.

    Gives view act t a t'    from what is seen as `t`, the value `a`, and then `t'` is seen
    Fails view act t P t'    from what is seen as `t`, a failure that `P` holds of, and then `t'`

A step on a host is viewed by its stores, or by all of it but the journal; a
step of a run by the stores and the report.
-/
import Provisioning.Proofs.Host.Leads
import Provisioning.Proofs.Host.Stores

namespace Provisioning

variable {σ τ α β : Type} {view : σ → τ}

/-- From every state seen as `t` the step ends in the value `a`, in a state seen as `t'`. -/
def Gives (view : σ → τ) (act : EStateM Fault σ α) (t : τ) (a : α) (t' : τ) : Prop :=
  ∀ x, view x = t → ∃ x', act x = .ok a x' ∧ view x' = t'

/-- From every state seen as `t` the step fails as `P` says, in a state seen as `t'`. -/
def Fails (view : σ → τ) (act : EStateM Fault σ α) (t : τ) (P : Fault → Prop) (t' : τ) : Prop :=
  ∀ x, view x = t → ∃ e x', act x = .error e x' ∧ P e ∧ view x' = t'

/-! ## One step after another -/

section Sequence
variable {act : EStateM Fault σ α} {next : α → EStateM Fault σ β} {P Q : Fault → Prop}
  {t t' t'' : τ} {a : α} {b : β} {q : Prop}

theorem gives_pure (a : α) (t : τ) : Gives view (pure a) t a t := fun x hx => ⟨x, rfl, hx⟩

theorem fails_throw {e : Fault} (he : P e) (t : τ) :
    Fails view (throw e : EStateM Fault σ α) t P t := fun x hx => ⟨e, x, rfl, he, hx⟩

theorem fails_throw_self (e : Fault) (t : τ) :
    Fails view (throw e : EStateM Fault σ α) t (· = e) t := fun x hx => ⟨e, x, rfl, rfl, hx⟩

theorem Gives.bind (h₁ : Gives view act t a t') (h₂ : Gives view (next a) t' b t'') :
    Gives view (act >>= next) t b t'' := by
  intro x hx
  obtain ⟨x', hact, hx'⟩ := h₁ x hx
  obtain ⟨x'', hnext, hx''⟩ := h₂ x' hx'
  exact ⟨x'', (bind_eq_of_ok hact next).trans hnext, hx''⟩

theorem Gives.bind_fails (h₁ : Gives view act t a t') (h₂ : Fails view (next a) t' P t'') :
    Fails view (act >>= next) t P t'' := by
  intro x hx
  obtain ⟨x', hact, hx'⟩ := h₁ x hx
  obtain ⟨e, x'', hnext, he, hx''⟩ := h₂ x' hx'
  exact ⟨e, x'', (bind_eq_of_ok hact next).trans hnext, he, hx''⟩

theorem Fails.bind (h₁ : Fails view act t P t') (next : α → EStateM Fault σ β) :
    Fails view (act >>= next) t P t' := by
  intro x hx
  obtain ⟨e, x', hact, he, hx'⟩ := h₁ x hx
  exact ⟨e, x', bind_eq_of_error hact next, he, hx'⟩

theorem Fails.mono (h : Fails view act t P t') (hPQ : ∀ e, P e → Q e) : Fails view act t Q t' := by
  intro x hx
  obtain ⟨e, x', hact, he, hx'⟩ := h x hx
  exact ⟨e, x', hact, hPQ e he, hx'⟩

/-- What is read by `get` is some state that is seen as the step's own. -/
theorem gives_get_bind {next : σ → EStateM Fault σ β}
    (h : ∀ x, view x = t → Gives view (next x) t b t') : Gives view (get >>= next) t b t' :=
  fun x hx => h x hx x hx

theorem fails_get_bind {next : σ → EStateM Fault σ β}
    (h : ∀ x, view x = t → Fails view (next x) t P t') : Fails view (get >>= next) t P t' :=
  fun x hx => h x hx x hx

theorem gives_modify {change : σ → σ} (h : ∀ x, view x = t → view (change x) = t') :
    Gives view (modify change) t ⟨⟩ t' := fun x hx => ⟨change x, rfl, h x hx⟩

/-! ## Choices -/

theorem Gives.ite_pos [Decidable q] {act' : EStateM Fault σ α} (hq : q)
    (h : Gives view act t a t') : Gives view (if q then act else act') t a t' := by
  rw [if_pos hq]
  exact h

theorem Gives.ite_neg [Decidable q] {act' : EStateM Fault σ α} (hq : ¬ q)
    (h : Gives view act t a t') : Gives view (if q then act' else act) t a t' := by
  rw [if_neg hq]
  exact h

theorem Fails.ite_pos [Decidable q] {act' : EStateM Fault σ α} (hq : q)
    (h : Fails view act t P t') : Fails view (if q then act else act') t P t' := by
  rw [if_pos hq]
  exact h

theorem Fails.ite_neg [Decidable q] {act' : EStateM Fault σ α} (hq : ¬ q)
    (h : Fails view act t P t') : Fails view (if q then act' else act) t P t' := by
  rw [if_neg hq]
  exact h

/-! ## What an outcome says of one state -/

theorem Fails.ne_ok (h : Fails view act t P t') {x x' : σ} {b : α} (hx : view x = t) :
    act x ≠ .ok b x' := by
  obtain ⟨e', y, hy, -, -⟩ := h x hx
  rw [hy]
  exact fun hact => nomatch hact

theorem Fails.of_error (h : Fails view act t P t') {x x' : σ} {e : Fault} (hx : view x = t)
    (hact : act x = .error e x') : P e ∧ view x' = t' := by
  obtain ⟨e', y, hy, he', hy'⟩ := h x hx
  rw [hact] at hy
  cases hy
  exact ⟨he', hy'⟩

theorem Gives.ne_error (h : Gives view act t a t') {x x' : σ} {e : Fault} (hx : view x = t) :
    act x ≠ .error e x' := by
  obtain ⟨y, hy, -⟩ := h x hx
  rw [hy]
  exact fun hact => nomatch hact

theorem Gives.of_ok (h : Gives view act t a t') {x x' : σ} {b : α} (hx : view x = t)
    (hact : act x = .ok b x') : b = a ∧ view x' = t' := by
  obtain ⟨y, hy, hy'⟩ := h x hx
  rw [hact] at hy
  cases hy
  exact ⟨rfl, hy'⟩

end Sequence

/-! ## Steps on a host -/

/-- The host aside from what is written down. -/
def Host.aside (h : Host) : Host := { h with journal := [] }

/-- Hosts that are the same aside from the journal look the same through a view of anything else. -/
theorem Host.eq_of_aside {x h : Host} (hx : x.aside = h.aside) (field : Host → τ)
    (hfield : ∀ y, field y.aside = field y := by intro _; rfl) : field x = field h := by
  rw [← hfield x, ← hfield h, hx]

/-- A view through which nothing is seen of the journal. -/
class Unwritten (view : Host → τ) : Prop where
  view_noted : ∀ h e, view (h.noted e) = view h

instance : Unwritten Host.stores := ⟨fun _ _ => rfl⟩

instance : Unwritten Host.aside := ⟨fun _ _ => rfl⟩

namespace Run

variable {view : Host → τ} {t t' : τ} {P Q : Fault → Prop} {act : Run α} {a : α}

/-- A step that only looks, and finds the same wherever the same is seen. -/
theorem gives_of_look (hact : ∀ x, view x = t → act x = .ok a x) : Gives view act t a t :=
  fun x hx => ⟨x, hact x hx, hx⟩

/-- What a step makes of a host aside from the journal, it makes of the stores. -/
theorem Gives.stores {S S' : Stores}
    (hact : ∀ h : Host, h.stores = S → ∃ h', Gives Host.aside act h.aside a h' ∧ h'.stores = S') :
    Gives Host.stores act S a S' := by
  intro x hx
  obtain ⟨h', hgives, hstores⟩ := hact x hx
  obtain ⟨x', hended, hx'⟩ := hgives x rfl
  subst hx'
  exact ⟨x', hended, hstores⟩

theorem Fails.stores {S S' : Stores}
    (hact : ∀ h : Host, h.stores = S →
      ∃ h', Fails Host.aside act h.aside P h' ∧ h'.stores = S') :
    Fails Host.stores act S P S' := by
  intro x hx
  obtain ⟨h', hfails, hstores⟩ := hact x hx
  obtain ⟨e, x', hended, he, hx'⟩ := hfails x rfl
  subst hx'
  exact ⟨e, x', hended, he, hstores⟩

theorem gives_note [Unwritten view] (e : Event) : Gives view (note e) t () t :=
  gives_modify fun x hx => (Unwritten.view_noted x e).trans hx

theorem gives_log [Unwritten view] (level : LogLevel) (source : LogSource) (message : String) :
    Gives view (log level source message) t () t := gives_note _

theorem gives_ofExcept {x : Except Fault α} (hx : x = .ok a) : Gives view (ofExcept x) t a t := by
  subst hx
  exact gives_pure a t

theorem fails_ofExcept {x : Except Fault α} {e : Fault} (hx : x = .error e) :
    Fails view (ofExcept x) t (· = e) t := by
  subst hx
  exact fails_throw_self e t

theorem gives_mapFault (h : Gives view act t a t') (replace : Fault → Option Fault) :
    Gives view (mapFault replace act) t a t' := by
  intro x hx
  obtain ⟨x', hact, hx'⟩ := h x hx
  exact ⟨x', mapFault_eq_ok_iff.2 hact, hx'⟩

theorem fails_mapFault (h : Fails view act t P t') {replace : Fault → Option Fault}
    (hPQ : ∀ e, P e → Q ((replace e).getD e)) : Fails view (mapFault replace act) t Q t' := by
  intro x hx
  obtain ⟨e, x', hact, he, hx'⟩ := h x hx
  exact ⟨_, x', by rw [mapFault, hact], hPQ e he, hx'⟩

theorem gives_catchRefusal (h : Gives view act t a t') :
    Gives view (catchRefusal act) t (.ok a) t' := by
  intro x hx
  obtain ⟨x', hact, hx'⟩ := h x hx
  exact ⟨x', catchRefusal_of_ok hact, hx'⟩

theorem gives_catchRefusal_of_fails {r : Refusal} (h : Fails view act t (· = .refused r) t') :
    Gives view (catchRefusal act) t (.error r) t' := by
  intro x hx
  obtain ⟨e, x', hact, rfl, hx'⟩ := h x hx
  exact ⟨x', catchRefusal_of_refused hact, hx'⟩

end Run

/-! ## Steps of a run, by the stores and the report -/

/-- What is seen of a run that has begun. -/
def Progress.seen (p : Progress) : Stores × Report := (p.host.stores, p.report)

namespace Step

variable {S S' : Stores} {R : Report} {P : Fault → Prop} {act : Run α} {a : α}

theorem gives_ofRun (h : Gives Host.stores act S a S') :
    Gives Progress.seen (ofRun act) (S, R) a (S', R) := by
  intro p hp
  obtain ⟨hS, hR⟩ := Prod.mk.inj hp
  obtain ⟨h', hact, hS'⟩ := h p.host hS
  exact ⟨{ p with host := h' }, by rw [ofRun, hact], by rw [← hS', ← hR]; rfl⟩

theorem fails_ofRun (h : Fails Host.stores act S P S') :
    Fails Progress.seen (ofRun act) (S, R) P (S', R) := by
  intro p hp
  obtain ⟨hS, hR⟩ := Prod.mk.inj hp
  obtain ⟨e, h', hact, he, hS'⟩ := h p.host hS
  exact ⟨e, { p with host := h' }, by rw [ofRun, hact], he, by rw [← hS', ← hR]; rfl⟩

theorem gives_report (change : Report → Report) :
    Gives Progress.seen (report change) (S, R) () (S, change R) := by
  refine gives_modify fun p hp => ?_
  obtain ⟨hS, hR⟩ := Prod.mk.inj hp
  rw [← hS, ← hR]
  rfl

end Step

end Provisioning
