/-
# `Provisioning.Proofs.Host.Faults` — in which ways a step can fail

A program cannot fail in any way it likes: it is not started, it runs longer
than its limit, or the operator interrupts it (`Programs.Real`).  A start that
fails is an error of the system, or is not even tried: an argument cannot hold
the null character, nor one that the encoding of the host lacks.  That a limit
is more than the system can wait for is left out; no configuration allows one.
On a host with such programs a step is `OrderlyOn host P` if it fails only as
`P` says, which may speak of the host on which the step failed, and if the
programs of the host are real afterwards.

    refusals but the cancellation       handled by whoever runs the step
    errors of the operating system      (`Fault.Handled`), so tolerated
    interrupts                          wherever `P` is looked at
    a start that is not possible        tolerated where programs are started
    anything else                       for `P` to say

Orderly steps are closed under everything that steps are made of.
-/
import Provisioning.Proofs.Host.Growth

namespace Provisioning

/-! ## What programs may do -/

/-- An argument cannot be handed to a program: it holds the null character, or one beyond ASCII, which
the encoding of the host may lack. -/
def Invocation.Unfit (i : Invocation) : Prop :=
  ∃ a ∈ i.args, ∃ c ∈ a.toList, c = '\x00' ∨ 128 ≤ c.toNat

/-- How the start of a program may fail. -/
inductive Invocation.Fails (i : Invocation) : Fault → Prop where
  | system (e : SystemError) : i.Fails (.system e)
  | interrupted : i.Fails .interrupted
  /-- Only a program with a limit can run too long. -/
  | overran {limit : Number} (hlimit : i.limit = some limit) : i.Fails (.timedOut i.args (some limit))
  /-- Arguments that cannot be handed on are refused before anything is started. -/
  | unstartable (message : String) (hunfit : i.Unfit) : i.Fails (.badValue message)

/-- The programs fail in no other way. -/
def Programs.Real (programs : Programs) : Prop :=
  ∀ started i tree e tree', programs started i tree = (.error e, tree') → i.Fails e

/-- Programs that are real at first are real in the end. -/
def Host.StaysReal (h h' : Host) : Prop := h.programs.Real → h'.programs.Real

instance : Steady Host.StaysReal where
  refl _ hreal := hreal
  trans := fun _ _ _ hfirst hsecond hreal => hsecond (hfirst hreal)
  of_proceeds hproceeds hreal := by rwa [hproceeds.programs_eq]

theorem Run.allowsPrivileges_staysReal : Run.AllowsPrivileges Host.StaysReal :=
  ⟨fun _ _ hreal => hreal, fun _ _ _ _ _ hreal => hreal⟩

/-- The program that was started last did not run to its end. -/
def Host.LastCutShort (h : Host) (i : Invocation) : Prop :=
  h.journal.programRuns.getLast? = some (i, none)

theorem Host.lastCutShort_started (h : Host) (t : Tree) (i : Invocation) :
    Host.LastCutShort { h with tree := t, journal := h.journal ++ [.started i none] } i := by
  simp [LastCutShort, Journal.programRuns]

/-! ## What is handled -/

/-- The failure is a refusal, but not the cancellation; an error of the system; or an interrupt. -/
inductive Fault.Handled : Fault → Prop where
  | refused {r : Refusal} (hkind : r.kind ≠ .operationCancelled) : Handled (.refused r)
  | system (e : SystemError) : Handled (.system e)
  | interrupted : Handled .interrupted

theorem Fault.handled_refuse {kind : RefusalKind} (hkind : kind ≠ .operationCancelled)
    (message : String) (details : List (String × Detail)) :
    (Fault.refuse kind message details).Handled := .refused hkind

theorem Fault.handled_refuseFrom {kind : RefusalKind} (hkind : kind ≠ .operationCancelled)
    (cause : Cause) (message : String) (details : List (String × Detail)) :
    (Fault.refuseFrom cause kind message details).Handled := .refused hkind

/-- Whatever is handled is among what `P` says, on every host. -/
class Tolerates (P : Fault → Host → Prop) : Prop where
  of_handled : ∀ {e : Fault}, e.Handled → ∀ h, P e h

instance : Tolerates fun e _ => e.Handled := ⟨fun he _ => he⟩

/-- And so is a start that is not possible, on the host on which it was the last. -/
class ToleratesStarts (P : Fault → Host → Prop) : Prop extends Tolerates P where
  of_unstartable : ∀ {i : Invocation} {h : Host} (message : String), i.Unfit →
    h.LastCutShort i → P (.badValue message) h

/-! ## Orderly steps -/

section
variable {σ α β : Type} {host : σ → Host} {P Q : Fault → Host → Prop} {act : EStateM Fault σ α}

/-- On a host with real programs the step fails only as `P` says, and the programs stay real. -/
def OrderlyOn (host : σ → Host) (P : Fault → Host → Prop) (act : EStateM Fault σ α) : Prop :=
  ∀ x, (host x).programs.Real →
    match act x with
    | .ok _ x' => (host x').programs.Real
    | .error e x' => (host x').programs.Real ∧ P e (host x')

theorem OrderlyOn.of_ok (horderly : OrderlyOn host P act) {x x' : σ} {a : α}
    (hreal : (host x).programs.Real) (hact : act x = .ok a x') : (host x').programs.Real := by
  have hx := horderly x hreal
  rw [hact] at hx
  exact hx

theorem OrderlyOn.of_error (horderly : OrderlyOn host P act) {x x' : σ} {e : Fault}
    (hreal : (host x).programs.Real) (hact : act x = .error e x') :
    (host x').programs.Real ∧ P e (host x') := by
  have hx := horderly x hreal
  rw [hact] at hx
  exact hx

theorem OrderlyOn.mono (horderly : OrderlyOn host P act) (hPQ : ∀ e h, P e h → Q e h) :
    OrderlyOn host Q act := by
  intro x hreal
  cases hact : act x with
  | ok a x' => exact horderly.of_ok hreal hact
  | error e x' =>
      exact ⟨(horderly.of_error hreal hact).1, hPQ _ _ (horderly.of_error hreal hact).2⟩

theorem orderly_pure (a : α) : OrderlyOn host P (pure a) := fun _ hreal => hreal

theorem orderly_get : OrderlyOn host P (get : EStateM Fault σ σ) := fun _ hreal => hreal

theorem orderly_modify {change : σ → σ}
    (hkeeps : ∀ x, (host (change x)).programs = (host x).programs) :
    OrderlyOn host P (modify change : EStateM Fault σ Unit) := by
  intro x hreal
  change (host (change x)).programs.Real
  rw [hkeeps]
  exact hreal

theorem orderly_throw {e : Fault} (he : ∀ h, P e h) :
    OrderlyOn host P (throw e : EStateM Fault σ α) := fun x hreal => ⟨hreal, he (host x)⟩

theorem orderly_throw_of_handled [Tolerates P] {e : Fault} (he : e.Handled) :
    OrderlyOn host P (throw e : EStateM Fault σ α) := orderly_throw (Tolerates.of_handled he)

theorem OrderlyOn.bind {next : α → EStateM Fault σ β} (h₁ : OrderlyOn host P act)
    (h₂ : ∀ a, OrderlyOn host P (next a)) : OrderlyOn host P (act >>= next) := by
  intro x hreal
  cases hact : act x with
  | ok a x' =>
      rw [bind_eq_of_ok hact next]
      exact h₂ a x' (h₁.of_ok hreal hact)
  | error e x' =>
      rw [bind_eq_of_error hact next]
      exact h₁.of_error hreal hact

theorem OrderlyOn.ite {p : Prop} [Decidable p] {act' : EStateM Fault σ α}
    (h₁ : OrderlyOn host P act) (h₂ : OrderlyOn host P act') :
    OrderlyOn host P (if p then act else act') := by
  split
  · exact h₁
  · exact h₂

end

/-! ## Steps on a host -/

namespace Run

variable {α β : Type} {P Q : Fault → Host → Prop} {act : Run α}

/-- On a host with real programs the step fails only as `P` says, and the programs stay real. -/
abbrev Orderly (P : Fault → Host → Prop) (act : Run α) : Prop :=
  OrderlyOn (fun h : Host => h) P act

theorem Orderly.staysReal (horderly : Orderly P act) : Leads Host.StaysReal act := by
  intro h hreal
  cases hact : act h with
  | ok a h' =>
      rw [hostAfter_of_ok hact]
      exact horderly.of_ok hreal hact
  | error e h' =>
      rw [hostAfter_of_error hact]
      exact (horderly.of_error hreal hact).1

/-- A step that leaves the programs as they are, however they are. -/
theorem Orderly.of_leads (hkeeps : Leads (SameBy Host.programs) act)
    (hfails : ∀ h e h', act h = .error e h' → P e h') : Orderly P act := by
  intro h hreal
  cases hact : act h with
  | ok a h' =>
      have hsame : h'.programs = h.programs := hkeeps.of_ok hact
      change h'.programs.Real
      rwa [hsame]
  | error e h' =>
      have hsame : h'.programs = h.programs := hkeeps.of_error hact
      refine ⟨?_, hfails _ _ _ hact⟩
      change h'.programs.Real
      rwa [hsame]

theorem orderly_ofExcept {x : Except Fault α} (hx : ∀ e, x = .error e → ∀ h, P e h) :
    Orderly P (ofExcept x) := by
  cases x with
  | ok a => exact orderly_pure a
  | error e => exact orderly_throw (hx e rfl)

theorem orderly_note (e : Event) : Orderly P (note e) := orderly_modify fun _ => rfl

theorem orderly_log (level : LogLevel) (source : LogSource) (message : String) :
    Orderly P (log level source message) := orderly_note _

theorem orderly_refuse [Tolerates P] {kind : RefusalKind} (hkind : kind ≠ .operationCancelled)
    (message : String) (details : List (String × Detail)) :
    Orderly P (refuse kind message details : Run α) :=
  orderly_throw_of_handled (Fault.handled_refuse hkind message details)

theorem Orderly.mapFault (horderly : Orderly P act) {replace : Fault → Option Fault}
    (hreplace : ∀ e h, P e h → Q ((replace e).getD e) h) : Orderly Q (mapFault replace act) := by
  intro h hreal
  unfold Run.mapFault
  cases hact : act h with
  | ok a h' => exact horderly.of_ok hreal hact
  | error e h' =>
      exact ⟨(horderly.of_error hreal hact).1, hreplace _ _ (horderly.of_error hreal hact).2⟩

theorem Orderly.catchRefusal (horderly : Orderly P act) : Orderly P (catchRefusal act) := by
  intro h hreal
  unfold Run.catchRefusal
  cases hact : act h with
  | ok a h' => exact horderly.of_ok hreal hact
  | error e h' =>
      cases e with
      | refused r => exact (horderly.of_error hreal hact).1
      | _ => exact horderly.of_error hreal hact

/-- A step that goes on in one way after a value and in another after a failure. -/
theorem Orderly.either {onValue : α → Run β} {onFailure : Fault → Run β} (h₀ : Orderly P act)
    (h₁ : ∀ a, Orderly Q (onValue a)) (h₂ : ∀ e, (∃ h, P e h) → Orderly Q (onFailure e)) :
    Orderly Q fun h =>
      match act h with
      | .ok a h' => onValue a h'
      | .error e h' => onFailure e h' := by
  intro h hreal
  cases hact : act h with
  | ok a h' =>
      have hvalue := h₁ a h' (h₀.of_ok hreal hact)
      simpa only [hact] using hvalue
  | error e h' =>
      have hfailed := h₀.of_error hreal hact
      have hfailure := h₂ e ⟨h', hfailed.2⟩ h' hfailed.1
      simpa only [hact] using hfailure

/-! ### The primitives -/

theorem orderly_uidOf? (name : String) : Orderly P (uidOf? name) :=
  orderly_get.bind fun _ => orderly_pure _

theorem orderly_userOf? (uid : Int) : Orderly P (userOf? uid) :=
  orderly_get.bind fun _ => orderly_pure _

/-- A text is put on the output, or does not get there. -/
theorem orderly_print (text : String) :
    Orderly (fun e h => ∃ f, h.outputFailure text = some f ∧ e = f.fault) (print text) := by
  intro h hreal
  unfold print
  cases hfailure : h.outputFailure text with
  | none => exact hreal
  | some f => exact ⟨hreal, f, hfailure, rfl⟩

theorem orderly_callLsa (call : LsaCall) (answer : Host → Nat → LsaAnswer α) :
    Orderly P (callLsa call answer) := fun _ hreal => hreal

section
variable [Tolerates P]

theorem orderly_entryAt (p : Path) : Orderly P (entryAt p) := by
  intro h hreal
  unfold entryAt
  cases h.tree.stat p with
  | ok n => exact hreal
  | error e =>
      by_cases he : e.number? = some SystemError.noEntry
      · simp only [if_pos he]
        exact hreal
      · simp only [if_neg he]
        exact ⟨hreal, Tolerates.of_handled (.system e) h⟩

theorem orderly_pathExists (p : Path) : Orderly P (pathExists p) :=
  (orderly_entryAt p).bind fun _ => orderly_pure _

theorem orderly_isDirectory (p : Path) : Orderly P (isDirectory p) :=
  (orderly_entryAt p).bind fun _ => orderly_pure _

theorem orderly_mkdir (p : Path) : Orderly P (mkdir p) := by
  intro h hreal
  unfold mkdir
  cases h.tree.mkdir h.euid p with
  | ok t => exact hreal
  | error e => exact ⟨hreal, Tolerates.of_handled (.system e) h⟩

theorem orderly_chown (start p : Path) (uid : Int) : Orderly P (chown start p uid) := by
  intro h hreal
  unfold chown
  cases h.tree.chown p uid with
  | ok t => exact hreal
  | error e => exact ⟨hreal, Tolerates.of_handled (.system e) h⟩

end

/-! ### Programs -/

/-- A program fails as programs do, and is then the last that was started. -/
theorem orderly_startProgram (args : List String) (limit : Option Number) :
    Orderly (fun e h => Invocation.Fails ⟨args, limit⟩ e ∧ h.LastCutShort ⟨args, limit⟩)
      (startProgram args limit) := by
  intro h hreal
  unfold startProgram
  dsimp only
  cases hended : h.programs h.journal.invocations ⟨args, limit⟩ h.tree with
  | mk outcome t =>
      cases outcome with
      | ok out => exact hreal
      | error e => exact ⟨hreal, hreal _ _ _ _ _ hended, h.lastCutShort_started t _⟩

theorem orderly_command (program : String) (args : List String) (limit : Option Number)
    (secrets : List String) :
    Orderly
      (fun e h => Invocation.Fails ⟨program :: args, limit⟩ e ∧
        h.LastCutShort ⟨program :: args, limit⟩)
      (command (program :: args) limit secrets) :=
  OrderlyOn.bind (orderly_log _ _ _) fun _ => (orderly_startProgram _ _).bind fun _ =>
    OrderlyOn.bind (orderly_log _ _ _) fun _ => orderly_pure _

/-- A program whose failures are reported, an overrun like one of the system. -/
theorem orderly_command_reported [ToleratesStarts P] (program : String) (args : List String)
    (limit : Option Number) (secrets : List String) {replace : Fault → Option Fault}
    (hsystem : ∀ e, ∃ e', replace (.system e) = some e' ∧ e'.Handled)
    (hoverran : ∀ args limit, ∃ e', replace (.timedOut args limit) = some e' ∧ e'.Handled)
    (hinterrupted : replace .interrupted = none)
    (hunstartable : ∀ message, replace (.badValue message) = none) :
    Orderly P (mapFault replace (command (program :: args) limit secrets)) := by
  refine (orderly_command program args limit secrets).mapFault fun e h ⟨hfails, hlast⟩ => ?_
  cases hfails with
  | system e =>
      obtain ⟨e', he, hhandled⟩ := hsystem e
      rw [he]
      exact Tolerates.of_handled hhandled h
  | interrupted =>
      rw [hinterrupted]
      exact Tolerates.of_handled .interrupted h
  | overran hlimit =>
      obtain ⟨e', he, hhandled⟩ := hoverran _ _
      rw [he]
      exact Tolerates.of_handled hhandled h
  | unstartable message hunfit =>
      rw [hunstartable]
      exact ToleratesStarts.of_unstartable message hunfit hlast

end Run

/-! ## Steps of a run that has begun -/

namespace Step

variable {α : Type} {P : Fault → Host → Prop}

/-- On a host with real programs the step fails only as `P` says, and the programs stay real. -/
abbrev Orderly (P : Fault → Host → Prop) (act : Step α) : Prop :=
  OrderlyOn Progress.host P act

theorem orderly_ofRun {act : Run α} (horderly : Run.Orderly P act) : Orderly P (ofRun act) := by
  intro p hreal
  unfold ofRun
  cases hact : act p.host with
  | ok a h' => exact horderly.of_ok hreal hact
  | error e h' => exact horderly.of_error hreal hact

theorem orderly_report (change : Report → Report) : Orderly P (report change) :=
  orderly_modify fun _ => rfl

end Step

end Provisioning
