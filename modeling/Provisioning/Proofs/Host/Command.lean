/-
# `Provisioning.Proofs.Host.Command` — the start of a program, to its end

A program that is started answers with an output or a failure, and leaves a
file tree behind.  What the start comes to is said here for each of the two,
with everything that is written down on the way.

    logged     Running: …                  the arguments, the secret ones hidden
    started    the arguments, the status   without a status when there is no output
    logged     Exit status …               only after an output
-/
import Provisioning.Host.Command
import Provisioning.Proofs.Host.Leads

namespace Provisioning.Run

variable {program : String} {args : List String} {limit : Option Number} {h : Host}
  {out : ProgramOutput} {e : Fault} {t : Tree}

theorem startProgram_of_ok
    (hended : h.programs h.journal.invocations ⟨args, limit⟩ h.tree = (.ok out, t)) :
    startProgram args limit h =
      .ok out { h with
        tree := t, journal := h.journal ++ [.started ⟨args, limit⟩ (some out.status)] } := by
  rw [startProgram, hended]

theorem startProgram_of_error
    (hended : h.programs h.journal.invocations ⟨args, limit⟩ h.tree = (.error e, t)) :
    startProgram args limit h =
      .error e { h with tree := t, journal := h.journal ++ [.started ⟨args, limit⟩ none] } := by
  rw [startProgram, hended]

/-- The line that is logged before a program is started. -/
def startLine (args secrets : List String) : Event :=
  .logged {
    level := .debug
    source := .commands
    message := "Running: " ++ " ".intercalate (preview args secrets) }

/-- The line that is logged after a program ended with an output. -/
def endLine (program : String) (out : ProgramOutput) : Event :=
  .logged {
    level := .debug
    source := .commands
    message := "Exit status " ++ toString out.status ++ ": " ++ program }

theorem invocations_logged (h : Host) (level : LogLevel) (source : LogSource) (message : String) :
    (h.logged level source message).journal.invocations = h.journal.invocations := by
  simp [Host.noted, Host.logged, Journal.invocations, Journal.programRuns]

theorem command_of_ok (secrets : List String)
    (hended : h.programs h.journal.invocations ⟨program :: args, limit⟩ h.tree = (.ok out, t)) :
    command (program :: args) limit secrets h =
      .ok out { h with
        tree := t
        journal := h.journal ++ [startLine (program :: args) secrets,
          .started ⟨program :: args, limit⟩ (some out.status), endLine program out] } := by
  rw [command, log_bind, bind_apply_of_ok
    (startProgram_of_ok ((congrArg (h.programs · _ _) (invocations_logged h ..)).trans hended))]
  simp [log_bind, Host.noted, Host.logged, startLine, endLine]

theorem command_of_error (secrets : List String)
    (hended : h.programs h.journal.invocations ⟨program :: args, limit⟩ h.tree = (.error e, t)) :
    command (program :: args) limit secrets h =
      .error e { h with
        tree := t
        journal := h.journal ++ [startLine (program :: args) secrets,
          .started ⟨program :: args, limit⟩ none] } := by
  rw [command, log_bind, bind_apply_of_error
    (startProgram_of_error ((congrArg (h.programs · _ _) (invocations_logged h ..)).trans hended))]
  simp [Host.noted, Host.logged, startLine]

/-- A command that returns has started its program, and no other. -/
theorem of_command_ok {secrets : List String} {h' : Host}
    (hran : command (program :: args) limit secrets h = .ok out h') :
    (∃ t, h.programs h.journal.invocations ⟨program :: args, limit⟩ h.tree = (.ok out, t)) ∧
      h'.journal.invocations = h.journal.invocations ++ [⟨program :: args, limit⟩] := by
  cases hended : h.programs h.journal.invocations ⟨program :: args, limit⟩ h.tree with
  | mk outcome t =>
      cases outcome with
      | ok out' =>
          rw [command_of_ok secrets hended] at hran
          cases hran
          refine ⟨⟨t, rfl⟩, ?_⟩
          simp [Journal.invocations, Journal.programRuns, startLine, endLine]
      | error e =>
          rw [command_of_error secrets hended] at hran
          cases hran

end Provisioning.Run
