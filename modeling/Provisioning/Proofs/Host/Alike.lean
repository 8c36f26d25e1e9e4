/-
# `Provisioning.Proofs.Host.Alike` — two runs side by side

Two steps go alike when, from states that are related, both end in values that
are related or both in one and the same failure, and in related states again
(`Alike`).  Steps that go alike are closed under everything that steps are made
of, so what one of two runs shows and the other does not is a matter of the
primitives.

The hosts that are compared are twins: they are the same but for the password
stored with an account that is there on both (`Host.Twin`).  No step on the
backends kept in memory looks at a stored password, so every one of them goes
alike with itself.
-/
import Provisioning.Capability
import Provisioning.Proofs.Host.Leads

namespace Provisioning

variable {σ α α' β β' : Type}

/-! ## Steps that go alike -/

/-- Two ends: values related by `Q`, or the same failure; and states related by `R`. -/
inductive EndsAlike (Q : α → α' → Prop) (R : σ → σ → Prop) :
    EStateM.Result Fault σ α → EStateM.Result Fault σ α' → Prop where
  | ok {a : α} {a' : α'} {x x' : σ} (hvalue : Q a a') (hstate : R x x') :
      EndsAlike Q R (.ok a x) (.ok a' x')
  | error {e : Fault} {x x' : σ} (hstate : R x x') : EndsAlike Q R (.error e x) (.error e x')

/-- From related states the steps end alike. -/
def Alike (Q : α → α' → Prop) (R : σ → σ → Prop) (act : EStateM Fault σ α)
    (act' : EStateM Fault σ α') : Prop :=
  ∀ x x', R x x' → EndsAlike Q R (act x) (act' x')

section
variable {Q : α → α' → Prop} {P : β → β' → Prop} {R : σ → σ → Prop} {act : EStateM Fault σ α}
  {act' : EStateM Fault σ α'} {next : α → EStateM Fault σ β} {next' : α' → EStateM Fault σ β'}

theorem endsAlike_ok_iff {a : α} {a' : α'} {x x' : σ} :
    EndsAlike Q R (.ok a x) (.ok a' x') ↔ Q a a' ∧ R x x' := by
  constructor
  · intro hends
    cases hends with
    | ok hvalue hstate => exact ⟨hvalue, hstate⟩
  · rintro ⟨hvalue, hstate⟩
    exact .ok hvalue hstate

theorem endsAlike_error_iff {e e' : Fault} {x x' : σ} :
    EndsAlike Q R (.error e x) (.error e' x') ↔ e = e' ∧ R x x' := by
  constructor
  · intro hends
    cases hends with
    | error hstate => exact ⟨rfl, hstate⟩
  · rintro ⟨rfl, hstate⟩
    exact .error hstate

theorem EndsAlike.imp {Q' : α → α' → Prop} {R' : σ → σ → Prop} {r : EStateM.Result Fault σ α}
    {r' : EStateM.Result Fault σ α'} (h : EndsAlike Q R r r') (hvalue : ∀ a a', Q a a' → Q' a a')
    (hstate : ∀ x x', R x x' → R' x x') : EndsAlike Q' R' r r' := by
  cases h with
  | ok ha hx => exact .ok (hvalue _ _ ha) (hstate _ _ hx)
  | error hx => exact .error (hstate _ _ hx)

theorem EndsAlike.bind {x x' : σ} (h₁ : EndsAlike Q R (act x) (act' x'))
    (h₂ : ∀ a a', Q a a' → Alike P R (next a) (next' a')) :
    EndsAlike P R ((act >>= next) x) ((act' >>= next') x') := by
  generalize hend : act x = r at h₁
  generalize hend' : act' x' = r' at h₁
  cases h₁ with
  | ok hvalue hstate =>
      rw [bind_eq_of_ok hend, bind_eq_of_ok hend']
      exact h₂ _ _ hvalue _ _ hstate
  | error hstate =>
      rw [bind_eq_of_error hend, bind_eq_of_error hend']
      exact .error hstate

theorem Alike.bind (h₁ : Alike Q R act act')
    (h₂ : ∀ a a', Q a a' → Alike P R (next a) (next' a')) :
    Alike P R (act >>= next) (act' >>= next') :=
  fun x x' hR => (h₁ x x' hR).bind h₂

theorem alike_pure {a : α} {a' : α'} (hvalue : Q a a') :
    Alike Q R (pure a : EStateM Fault σ α) (pure a') :=
  fun _ _ hR => .ok hvalue hR

theorem alike_throw (e : Fault) :
    Alike Q R (throw e : EStateM Fault σ α) (throw e : EStateM Fault σ α') :=
  fun _ _ hR => .error hR

theorem Alike.ite {p : Prop} [Decidable p] {other : EStateM Fault σ α}
    {other' : EStateM Fault σ α'} (h₁ : Alike Q R act act') (h₂ : Alike Q R other other') :
    Alike Q R (if p then act else other) (if p then act' else other') := by
  split
  · exact h₁
  · exact h₂

/-- What is read by `get` are two related states. -/
theorem alike_get_bind {next : σ → EStateM Fault σ β} {next' : σ → EStateM Fault σ β'}
    (h : ∀ x x', R x x' → EndsAlike P R (next x x) (next' x' x')) :
    Alike P R (get >>= next) (get >>= next') := h

theorem alike_modify {change change' : σ → σ} (h : ∀ x x', R x x' → R (change x) (change' x')) :
    Alike Eq R (modify change : EStateM Fault σ PUnit) (modify change') :=
  fun x x' hR => .ok rfl (h x x' hR)

end

namespace Run

variable {R : Host → Host → Prop} {Q : α → α' → Prop} {act : Run α} {act' : Run α'}

theorem alike_ofExcept (x : Except Fault α) : Alike Eq R (ofExcept x) (ofExcept x) := by
  cases x with
  | ok a => exact alike_pure rfl
  | error e => exact alike_throw e

theorem alike_mapFault (h : Alike Q R act act') (replace : Fault → Option Fault) :
    Alike Q R (mapFault replace act) (mapFault replace act') := by
  intro x x' hR
  have hends := h x x' hR
  unfold mapFault
  generalize act x = r, act' x' = r' at hends ⊢
  cases hends with
  | ok hvalue hstate => exact .ok hvalue hstate
  | error hstate => exact .error hstate

/-- What is known of each of the two steps by itself is known of their ends. -/
theorem endsAlike_leads {R' S S' : Host → Host → Prop} {x x' : Host}
    (hends : EndsAlike Q R (act x) (act' x')) (hact : Leads S act) (hact' : Leads S' act')
    (hstate : ∀ y y', R y y' → S x y → S' x' y' → R' y y') :
    EndsAlike Q R' (act x) (act' x') := by
  have hafter := hact x
  have hafter' := hact' x'
  unfold hostAfter at hafter hafter'
  generalize act x = r, act' x' = r' at hends hafter hafter' ⊢
  cases hends with
  | ok hvalue hR => exact .ok hvalue (hstate _ _ hR hafter hafter')
  | error hR => exact .error (hstate _ _ hR hafter hafter')

/-- Values related by `Q`, or the same refusal. -/
inductive SameRefusal (Q : α → α' → Prop) : Except Refusal α → Except Refusal α' → Prop where
  | ok {a : α} {a' : α'} (hvalue : Q a a') : SameRefusal Q (.ok a) (.ok a')
  | error {r : Refusal} : SameRefusal Q (.error r) (.error r)

theorem alike_catchRefusal (h : Alike Q R act act') :
    Alike (SameRefusal Q) R (catchRefusal act) (catchRefusal act') := by
  intro x x' hR
  have hends := h x x' hR
  unfold catchRefusal
  generalize act x = r, act' x' = r' at hends ⊢
  cases hends with
  | ok hvalue hstate => exact .ok (.ok hvalue) hstate
  | @error e _ _ hstate =>
      cases e with
      | refused r => exact .ok .error hstate
      | _ => exact .error hstate

end Run

/-! ## Hosts that are the same but for a password -/

/-- The tables are the same, or differ in the password of an account that is on both, and that
`new` says may differ. -/
def AccountTable.Twin (new : String → Prop) (t t' : AccountTable) : Prop :=
  t' = t ∨ ∃ name credential, new name ∧ t.users.contains name = true ∧
    t' = { t with users := t.users.put name (some credential) }

namespace AccountTable.Twin

variable {new : String → Prop} {t t' : AccountTable}

theorem keys_eq (twin : t.Twin new t') : t'.users.keys = t.users.keys := by
  rcases twin with rfl | ⟨name, credential, -, hthere, rfl⟩
  · rfl
  · exact (Table.keys_put _ _ _).trans (if_pos hthere)

theorem has_eq (twin : t.Twin new t') (name : String) : t'.has name = t.has name := by
  unfold has
  rw [twin.keys_eq]

theorem sessionUser_eq (twin : t.Twin new t') : t'.sessionUser = t.sessionUser := by
  rcases twin with rfl | ⟨name, credential, -, -, rfl⟩ <;> rfl

end AccountTable.Twin

/-- The hosts are the same but for a stored password. -/
def Host.Twin (new : String → Prop) (h h' : Host) : Prop :=
  ∃ t, h' = { h with accounts := t } ∧ h.accounts.Twin new t

theorem Host.Twin.refl (new : String → Prop) (h : Host) : h.Twin new h := ⟨_, rfl, .inl rfl⟩

section
variable {new : String → Prop}

namespace Run

theorem alike_note (e : Event) : Alike Eq (Host.Twin new) (note e) (note e) := by
  refine alike_modify ?_
  rintro h _ ⟨t, rfl, twin⟩
  exact ⟨t, rfl, twin⟩

theorem alike_log (level : LogLevel) (source : LogSource) (message : String) :
    Alike Eq (Host.Twin new) (log level source message) (log level source message) := alike_note _

theorem alike_pathExists (p : Path) : Alike Eq (Host.Twin new) (pathExists p) (pathExists p) := by
  refine Alike.bind (Q := Eq) ?_ fun n n' hn => alike_pure (by rw [hn])
  rintro h _ ⟨t, rfl, twin⟩
  unfold entryAt
  cases h.tree.stat p with
  | ok n => exact .ok rfl ⟨t, rfl, twin⟩
  | error e =>
      dsimp only
      split
      · exact .ok rfl ⟨t, rfl, twin⟩
      · exact .error ⟨t, rfl, twin⟩

end Run

end

end Provisioning
