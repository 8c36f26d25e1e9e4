/-
# `Provisioning.Proofs.Host.Leads` — what a step does wherever it begins

A step ends on a host in either case, in a value or in a failure.  `Leads R`
says of a step that the host on which it ends is related by `R` to the one on
which it began, whatever that was.  For a preorder `R` the steps that lead
along it are closed under everything that steps are made of, so a property of
a whole run is a matter of its primitives.

    Run.Leads  R act        a step on a host
    Step.Leads R act        a step of a run that has begun; the report is not looked at
    Step.Leaves view act    such a step, when it leaves a view of the report alone
    Run.Raises P act        a step on a host that fails only as `P` says
-/
import Mathlib.Order.Defs.Unbundled
import Provisioning.Capability

namespace Provisioning

variable {α β : Type} {R : Host → Host → Prop}

/-! ## One step after another, whatever the state -/

section
variable {σ : Type} {act : EStateM Fault σ α} {x x' : σ}

theorem bind_eq_of_ok {a : α} (hact : act x = .ok a x') (next : α → EStateM Fault σ β) :
    (act >>= next) x = next a x' := by
  change EStateM.bind act next x = next a x'
  unfold EStateM.bind
  rw [hact]

theorem bind_eq_of_error {e : Fault} (hact : act x = .error e x')
    (next : α → EStateM Fault σ β) : (act >>= next) x = .error e x' := by
  change EStateM.bind act next x = .error e x'
  unfold EStateM.bind
  rw [hact]

end

/-! ## How a step ended -/

section
variable {σ : Type} {result : EStateM.Result Fault σ α}

/-- Whether a step returned, and with what, is read off its result. -/
instance {P : α → σ → Prop} [∀ a x, Decidable (P a x)] :
    Decidable (∃ a x, result = .ok a x ∧ P a x) :=
  match result with
  | .ok a x => decidable_of_iff (P a x) ⟨fun hP => ⟨a, x, rfl, hP⟩, fun ⟨_, _, rfl, hP⟩ => hP⟩
  | .error _ _ => isFalse fun ⟨_, _, hok, _⟩ => nomatch hok

/-- Whether a step failed, and how, is read off its result. -/
instance {P : Fault → σ → Prop} [∀ e x, Decidable (P e x)] :
    Decidable (∃ e x, result = .error e x ∧ P e x) :=
  match result with
  | .ok _ _ => isFalse fun ⟨_, _, herror, _⟩ => nomatch herror
  | .error e x => decidable_of_iff (P e x) ⟨fun hP => ⟨e, x, rfl, hP⟩, fun ⟨_, _, rfl, hP⟩ => hP⟩

end

/-! ## Steps on a host -/

/-- The host with one event more written down. -/
def Host.noted (h : Host) (e : Event) : Host := { h with journal := h.journal ++ [e] }

/-- The host with a line more in its log. -/
def Host.logged (h : Host) (level : LogLevel) (source : LogSource) (message : String) : Host :=
  h.noted (.logged { level, source, message })

namespace Run

theorem log_apply (level : LogLevel) (source : LogSource) (message : String) (h : Host) :
    log level source message h = .ok () (h.logged level source message) := rfl

theorem mapFault_of_error {act : Run α} {h h' : Host} {e : Fault} (hact : act h = .error e h')
    (replace : Fault → Option Fault) :
    mapFault replace act h = .error ((replace e).getD e) h' := by rw [mapFault, hact]

theorem catchRefusal_of_ok {act : Run α} {h h' : Host} {a : α} (hact : act h = .ok a h') :
    catchRefusal act h = .ok (.ok a) h' := by rw [catchRefusal, hact]

theorem catchRefusal_of_refused {act : Run α} {h h' : Host} {r : Refusal}
    (hact : act h = .error (.refused r) h') : catchRefusal act h = .ok (.error r) h' := by
  rw [catchRefusal, hact]

theorem note_bind (e : Event) (next : Unit → Run β) (h : Host) :
    (note e >>= next) h = next () (h.noted e) := rfl

theorem log_bind (level : LogLevel) (source : LogSource) (message : String)
    (next : Unit → Run β) (h : Host) :
    (log level source message >>= next) h = next () (h.logged level source message) := rfl

/-- The host on which a step ends, in a value or in a failure. -/
def hostAfter (act : Run α) (h : Host) : Host :=
  match act h with
  | .ok _ h' => h'
  | .error _ h' => h'

/-- Wherever the step begins, it ends on a host that `R` relates to the first. -/
def Leads (R : Host → Host → Prop) (act : Run α) : Prop := ∀ h, R h (act.hostAfter h)

theorem hostAfter_of_ok {act : Run α} {h h' : Host} {a : α} (hact : act h = .ok a h') :
    act.hostAfter h = h' := by rw [hostAfter, hact]

theorem hostAfter_of_error {act : Run α} {h h' : Host} {e : Fault} (hact : act h = .error e h') :
    act.hostAfter h = h' := by rw [hostAfter, hact]

theorem hostAfter_bind_of_ok {act : Run α} {h h' : Host} {a : α} (hact : act h = .ok a h')
    (next : α → Run β) : (act >>= next).hostAfter h = (next a).hostAfter h' := by
  simp only [hostAfter, bind_apply_of_ok hact]

theorem Leads.of_ok {act : Run α} (hl : Leads R act) {h h' : Host} {a : α}
    (hact : act h = .ok a h') : R h h' := hostAfter_of_ok hact ▸ hl h

theorem Leads.of_error {act : Run α} (hl : Leads R act) {h h' : Host} {e : Fault}
    (hact : act h = .error e h') : R h h' := hostAfter_of_error hact ▸ hl h

theorem Leads.mono {S : Host → Host → Prop} {act : Run α} (hl : Leads R act)
    (hRS : ∀ h h', R h h' → S h h') : Leads S act := fun h => hRS _ _ (hl h)

/-- What follows a step that ended leads on from where that did. -/
theorem Leads.after_ok {act : Run α} {next : α → Run β} {h h' : Host} {a : α}
    (hnext : Leads R (next a)) (hact : act h = .ok a h') : R h' ((act >>= next).hostAfter h) := by
  rw [hostAfter_bind_of_ok hact]
  exact hnext h'

/-- A host looks the same as another through a view. -/
def SameBy {τ : Type} (view : Host → τ) (h h' : Host) : Prop := view h' = view h

instance {τ : Type} (view : Host → τ) : IsPreorder Host (SameBy view) where
  refl _ := rfl
  trans _ _ _ hsame hsame' := Eq.trans hsame' hsame

/-- A view that the following steps leave alone is as the first step left it. -/
theorem view_hostAfter_bind {τ : Type} {view : Host → τ} {next : α → Run β}
    (hnext : ∀ a, Leads (SameBy view) (next a)) (act : Run α) (h : Host) :
    view ((act >>= next).hostAfter h) = view (act.hostAfter h) := by
  cases hact : act h with
  | ok a h' =>
      rw [hostAfter_bind_of_ok hact, hostAfter_of_ok hact]
      exact hnext a h'
  | error e h' => rw [hostAfter_of_error (bind_apply_of_error hact next), hostAfter_of_error hact]

theorem hostAfter_mapFault (replace : Fault → Option Fault) (act : Run α) (h : Host) :
    (mapFault replace act).hostAfter h = act.hostAfter h := by
  unfold hostAfter mapFault
  cases act h <;> rfl

section Preorder
variable [IsPreorder Host R]

theorem leads_pure (a : α) : Leads R (pure a : Run α) := fun h => refl_of R h

theorem leads_throw (e : Fault) : Leads R (throw e : Run α) := fun h => refl_of R h

theorem leads_get : Leads R (get : Run Host) := fun h => refl_of R h

theorem Leads.bind {act : Run α} {next : α → Run β} (h₁ : Leads R act)
    (h₂ : ∀ a, Leads R (next a)) : Leads R (act >>= next) := by
  intro h
  cases hact : act h with
  | ok a h' =>
      rw [hostAfter_bind_of_ok hact]
      exact trans_of R (h₁.of_ok hact) (h₂ a h')
  | error e h' =>
      rw [hostAfter_of_error (bind_apply_of_error hact next)]
      exact h₁.of_error hact

theorem leads_ofExcept (x : Except Fault α) : Leads R (ofExcept x) := by
  cases x with
  | ok a => exact leads_pure a
  | error e => exact leads_throw e

theorem leads_refuse (kind : RefusalKind) (message : String) (details : List (String × Detail)) :
    Leads R (refuse kind message details : Run α) := leads_throw _

/-! ### Steps that only read -/

theorem leads_entryAt (p : Path) : Leads R (entryAt p) := by
  intro h
  have hafter : (entryAt p).hostAfter h = h := by
    unfold hostAfter entryAt
    cases h.tree.stat p with
    | ok n => rfl
    | error e => by_cases he : e.number? = some SystemError.noEntry <;> simp [he]
  rw [hafter]
  exact refl_of R h

theorem leads_pathExists (p : Path) : Leads R (pathExists p) :=
  (leads_entryAt p).bind fun _ => leads_pure _

theorem leads_isDirectory (p : Path) : Leads R (isDirectory p) :=
  (leads_entryAt p).bind fun _ => leads_pure _

theorem leads_uidOf? (name : String) : Leads R (uidOf? name) := leads_get.bind fun _ => leads_pure _

theorem leads_userOf? (uid : Int) : Leads R (userOf? uid) := leads_get.bind fun _ => leads_pure _

theorem leads_login : Leads R login := by
  refine leads_get.bind fun h => ?_
  cases h.login with
  | ok name => exact leads_pure _
  | error f => exact leads_throw _

theorem leads_sessionUser (store : IdentityStore) : Leads R store.sessionUser := by
  cases store with
  | table => exact leads_get.bind fun _ => leads_pure _
  | netUser executable limit => exact leads_login
  | posix =>
      refine leads_get.bind fun h => ?_
      cases given (h.environment.get? "SUDO_USER") with
      | some name => exact leads_pure _
      | none => exact leads_login

end Preorder

/-- A choice between two steps, made before either. -/
theorem Leads.ite {p : Prop} [Decidable p] {act act' : Run α} (h₁ : Leads R act)
    (h₂ : Leads R act') : Leads R (if p then act else act') := by
  split
  · exact h₁
  · exact h₂

/-- A step that goes on in one way after a value and in another after a failure. -/
theorem Leads.either [IsPreorder Host R] {act : Run α} {onValue : α → Run β}
    {onFailure : Fault → Run β} (h₀ : Leads R act) (h₁ : ∀ a, Leads R (onValue a))
    (h₂ : ∀ e, Leads R (onFailure e)) :
    Leads R fun h =>
      match act h with
      | .ok a h' => onValue a h'
      | .error e h' => onFailure e h' := by
  intro h
  cases hact : act h with
  | ok a h' =>
      have hafter := trans_of R (h₀.of_ok hact) (h₁ a h')
      simpa only [hostAfter, hact] using hafter
  | error e h' =>
      have hafter := trans_of R (h₀.of_error hact) (h₂ e h')
      simpa only [hostAfter, hact] using hafter

theorem Leads.mapFault {act : Run α} (hl : Leads R act) (replace : Fault → Option Fault) :
    Leads R (mapFault replace act) := by
  intro h
  rw [hostAfter_mapFault]
  exact hl h

theorem Leads.catchRefusal {act : Run α} (hl : Leads R act) : Leads R (catchRefusal act) := by
  intro h
  have hafter : (Run.catchRefusal act).hostAfter h = act.hostAfter h := by
    unfold hostAfter Run.catchRefusal
    cases act h with
    | ok a h' => rfl
    | error e h' => cases e <;> rfl
  rw [hafter]
  exact hl h

/-! ### How a step may fail -/

/-- Wherever the step begins, `P` holds of its failure. -/
def Raises (P : Fault → Prop) (act : Run α) : Prop := ∀ h e h', act h = .error e h' → P e

section
variable {P : Fault → Prop} {act : Run α}

theorem raises_pure (a : α) : Raises P (pure a : Run α) := fun _ _ _ herror => nomatch herror

theorem raises_throw {e : Fault} (he : P e) : Raises P (throw e : Run α) := by
  intro h e' h' herror
  cases herror
  exact he

theorem raises_get : Raises P (get : Run Host) := fun _ _ _ herror => nomatch herror

theorem raises_note (e : Event) : Raises P (note e) := fun _ _ _ herror => nomatch herror

theorem raises_ofExcept {x : Except Fault α} (hx : ∀ e, x = .error e → P e) :
    Raises P (ofExcept x) := by
  cases x with
  | ok a => exact raises_pure a
  | error e => exact raises_throw (hx e rfl)

theorem Raises.bind {next : α → Run β} (h₁ : Raises P act) (h₂ : ∀ a, Raises P (next a)) :
    Raises P (act >>= next) := by
  intro h e h'' herror
  cases hact : act h with
  | error e' h' =>
      rw [bind_apply_of_error hact] at herror
      cases herror
      exact h₁ _ _ _ hact
  | ok a h' =>
      rw [bind_apply_of_ok hact] at herror
      exact h₂ a _ _ _ herror

theorem Raises.ite {p : Prop} [Decidable p] {act' : Run α} (h₁ : Raises P act)
    (h₂ : Raises P act') : Raises P (if p then act else act') := by
  split
  · exact h₁
  · exact h₂

theorem Raises.mapFault (hact : Raises P act) {replace : Fault → Option Fault}
    (hreplace : ∀ e e', replace e = some e' → P e') : Raises P (mapFault replace act) := by
  intro h e h' herror
  unfold Run.mapFault at herror
  cases hended : act h with
  | ok a h₁ =>
      rw [hended] at herror
      exact nomatch herror
  | error e₁ h₁ =>
      rw [hended] at herror
      cases herror
      cases hnew : replace e₁ with
      | none => exact hact _ _ _ hended
      | some e₂ => exact hreplace e₁ e₂ hnew

theorem raises_entryAt (hsystem : ∀ e, P (.system e)) (p : Path) : Raises P (entryAt p) := by
  intro h e h' herror
  unfold entryAt at herror
  split at herror
  · exact nomatch herror
  · split at herror
    · exact nomatch herror
    · cases herror
      exact hsystem _

end

end Run

/-! ## Steps of a run that has begun -/

namespace Step

theorem ofRun_bind_of_ok {act : Run α} {p : Progress} {h : Host} {a : α}
    (hact : act p.host = .ok a h) (next : α → Step β) :
    (ofRun act >>= next) p = next a { p with host := h } :=
  bind_eq_of_ok (by rw [ofRun, hact]) next

theorem ofRun_bind_of_error {act : Run α} {p : Progress} {h : Host} {e : Fault}
    (hact : act p.host = .error e h) (next : α → Step β) :
    (ofRun act >>= next) p = .error e { p with host := h } :=
  bind_eq_of_error (by rw [ofRun, hact]) next

theorem report_bind (change : Report → Report) (next : Unit → Step β) (p : Progress) :
    (report change >>= next) p = next () { p with report := change p.report } :=
  bind_eq_of_ok rfl next

/-- What a step ends with, in a value or in a failure. -/
def progressAfter (act : Step α) (p : Progress) : Progress :=
  match act p with
  | .ok _ p' => p'
  | .error _ p' => p'

/-- Wherever the step begins, it ends on a host that `R` relates to the first. -/
def Leads (R : Host → Host → Prop) (act : Step α) : Prop :=
  ∀ p, R p.host (act.progressAfter p).host

theorem progressAfter_of_ok {act : Step α} {p p' : Progress} {a : α} (hact : act p = .ok a p') :
    act.progressAfter p = p' := by rw [progressAfter, hact]

theorem progressAfter_of_error {act : Step α} {p p' : Progress} {e : Fault}
    (hact : act p = .error e p') : act.progressAfter p = p' := by rw [progressAfter, hact]

theorem progressAfter_bind_of_ok {act : Step α} {p p' : Progress} {a : α} (hact : act p = .ok a p')
    (next : α → Step β) : (act >>= next).progressAfter p = (next a).progressAfter p' := by
  simp only [progressAfter, bind_eq_of_ok hact]

theorem Leads.of_ok {act : Step α} (hl : Leads R act) {p p' : Progress} {a : α}
    (hact : act p = .ok a p') : R p.host p'.host := progressAfter_of_ok hact ▸ hl p

theorem Leads.of_error {act : Step α} (hl : Leads R act) {p p' : Progress} {e : Fault}
    (hact : act p = .error e p') : R p.host p'.host := progressAfter_of_error hact ▸ hl p

theorem leads_ofRun {act : Run α} (hl : Run.Leads R act) : Leads R (ofRun act) := by
  intro p
  cases hact : act p.host with
  | ok a h' =>
      rw [progressAfter_of_ok (show ofRun act p = .ok a { p with host := h' } by
        rw [ofRun, hact])]
      exact hl.of_ok hact
  | error e h' =>
      rw [progressAfter_of_error (show ofRun act p = .error e { p with host := h' } by
        rw [ofRun, hact])]
      exact hl.of_error hact

section Preorder
variable [IsPreorder Host R]

theorem leads_pure (a : α) : Leads R (pure a : Step α) := fun p => refl_of R p.host

theorem leads_throw (e : Fault) : Leads R (throw e : Step α) := fun p => refl_of R p.host

theorem leads_report (change : Report → Report) : Leads R (report change) :=
  fun p => refl_of R p.host

theorem Leads.bind {act : Step α} {next : α → Step β} (h₁ : Leads R act)
    (h₂ : ∀ a, Leads R (next a)) : Leads R (act >>= next) := by
  intro p
  cases hact : act p with
  | ok a p' =>
      rw [progressAfter_bind_of_ok hact]
      exact trans_of R (h₁.of_ok hact) (h₂ a p')
  | error e p' =>
      rw [progressAfter_of_error (bind_eq_of_error hact next)]
      exact h₁.of_error hact

end Preorder

/-- A choice between two steps, made before either. -/
theorem Leads.ite {q : Prop} [Decidable q] {act act' : Step α} (h₁ : Leads R act)
    (h₂ : Leads R act') : Leads R (if q then act else act') := by
  split
  · exact h₁
  · exact h₂

/-! ## Steps that leave a part of the report alone -/

section Leaves
variable {τ : Type} {view : Report → τ} {act : Step α} {p : Progress}

/-- The step leaves a view of the report as it is. -/
def Leaves (view : Report → τ) (act : Step α) : Prop :=
  ∀ p, view (act.progressAfter p).report = view p.report

theorem leaves_pure (a : α) : Leaves view (pure a : Step α) := fun _ => rfl

theorem leaves_throw (e : Fault) : Leaves view (throw e : Step α) := fun _ => rfl

theorem leaves_report {change : Report → Report} (hview : ∀ r, view (change r) = view r) :
    Leaves view (report change) := fun p => hview p.report

theorem leaves_ofRun (act : Run α) : Leaves view (ofRun act) := by
  intro p
  unfold progressAfter ofRun
  cases act p.host <;> rfl

/-- What holds after a step holds after the next, if that step keeps it and so does its own failure. -/
theorem after_bind {I J : Progress → Prop} {next : α → Step β} (hact : I (act.progressAfter p))
    (hfailed : ∀ p', I p' → J p') (hnext : ∀ a p', I p' → J ((next a).progressAfter p')) :
    J ((act >>= next).progressAfter p) := by
  cases hended : act p with
  | ok a p' =>
      rw [progressAfter_bind_of_ok hended]
      exact hnext a p' (progressAfter_of_ok hended ▸ hact)
  | error e p' =>
      rw [progressAfter_of_error (bind_eq_of_error hended next)]
      exact hfailed p' (progressAfter_of_error hended ▸ hact)

theorem Leaves.bind {next : α → Step β} (h₁ : Leaves view act) (h₂ : ∀ a, Leaves view (next a)) :
    Leaves view (act >>= next) := fun p =>
  after_bind (I := fun p' => view p'.report = view p.report) (h₁ p) (fun _ hsame => hsame)
    fun a p' hsame => (h₂ a p').trans hsame

theorem Leaves.ite {q : Prop} [Decidable q] {act' : Step α} (h₁ : Leaves view act)
    (h₂ : Leaves view act') : Leaves view (if q then act else act') := by
  split
  · exact h₁
  · exact h₂

end Leaves

end Step

end Provisioning
