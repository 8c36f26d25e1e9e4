/-
# `Provisioning.Proofs.Secrecy.Creation` — what creating an account shows of the password

The account management program is given the password among its arguments.  Two
creations that differ in the password alone, and for which the program ends in
the same way, are compared by everything that is seen of them but those
arguments.

    the program ends              what is seen of the password
    with a status                 which other arguments are equal to it
    without having started        the same
    not within its limit          the same, and the password, quoted in the refusal

The first comes from the log, which hides arguments by value: one that happens
to be equal to the password is hidden as well.  The last comes from the text of
the overrun, which lists the arguments.

**Stated here.**  The creations look alike exactly when the passwords are the
same, or the program did not overrun and the lines in the log agree; and these
agree when neither password is one of the other arguments (`create_alike_iff`).
-/
import Provisioning.Account.Store
import Provisioning.Host.Script
import Provisioning.Proofs.Host.Alike
import Provisioning.Proofs.Host.Command
import Provisioning.Proofs.Text.Quoted

namespace Provisioning

open Run

/-! ## Hosts that look alike -/

/-- An event without the arguments of a program. -/
def Event.withoutArguments : Event → Event
  | .started i status => .started { i with args := [] } status
  | e => e

/-- The hosts are the same but for arguments that were given to programs. -/
def Host.ArgumentsAside (h h' : Host) : Prop :=
  ∃ j : Journal, h' = { h with journal := j } ∧
    j.map Event.withoutArguments = h.journal.map Event.withoutArguments

/-- What a program that ends in a way answers to the one who started it. -/
def ScriptedEnd.answer (i : Invocation) : ScriptedEnd → Except Fault ProgramOutput
  | .output out => .ok out
  | .fault e => .error e
  | .timeout => .error (.timedOut i.args i.limit)

/-! ## A creation and its end -/

namespace IdentityStore

/-- How the account management program is started to create an account. -/
def creation (executable : String) (limit : Number) (name password : String) : Invocation :=
  ⟨[executable, "user", name, password, "/add"], some limit⟩

/-- The arguments of a creation as they are logged. -/
def creationShown (executable name password : String) : String :=
  " ".intercalate (preview [executable, "user", name, password, "/add"] [password])

/-- What a failure of the program becomes when an account is created. -/
def creationFault (executable name : String) : Fault → Fault
  | .system e => createWithProgram.couldNotRun executable name (.system e)
  | .timedOut args limit =>
    createWithProgram.couldNotRun executable name (.overran args limit)
  | e => e

/-- The refusal of a creation that the program reports as failed. -/
def creationFailed (executable name : String) (out : ProgramOutput) : Fault :=
  .refuse .identityCreationFailure
    ("'" ++ executable ++ " user " ++ name ++ " /add' failed: " ++ Text.trim out.complaint)
    [("name", .text name), ("exit_code", .int out.status)]

/-- What is written down from the end of the program on. -/
def creationEnded (executable name : String) (out : ProgramOutput) : Journal :=
  endLine executable out ::
    if out.succeeded then
      [.logged {
        level := .info, source := .accounts, message := "Created local account '" ++ name ++ "'" }]
    else []

/-- The host after a creation for which the program was started, with the file tree that it left and
what was written down afterwards. -/
def afterCreation (h : Host) (t : Tree) (executable : String) (limit : Number)
    (name password : String) (status : Option Int) (es : Journal) : Host :=
  { h with
    tree := t
    journal := h.journal ++ .requested (.createAccount name) ::
      startLine [executable, "user", name, password, "/add"] [password] ::
      .started (creation executable limit name password) status :: es }

section
variable {executable name password password' : String} {limit : Number} {h : Host} {t : Tree}

/-- The request leaves the earlier starts as they are. -/
theorem programs_requested {ended : Except Fault ProgramOutput × Tree} {i : Invocation}
    (hended : h.programs h.journal.invocations i h.tree = ended) (c : Change) :
    (h.noted (.requested c)).programs (h.noted (.requested c)).journal.invocations i
      (h.noted (.requested c)).tree = ended := by
  have hsame : (h.noted (.requested c)).journal.invocations = h.journal.invocations := by
    simp [Host.noted, Journal.invocations, Journal.programRuns]
  rw [hsame]
  exact hended

theorem create_of_output {out : ProgramOutput}
    (hended : h.programs h.journal.invocations (creation executable limit name password) h.tree =
      (.ok out, t)) :
    create (.netUser executable limit) name ⟨password⟩ h =
      let h' := afterCreation h t executable limit name password (some out.status)
        (creationEnded executable name out)
      if out.succeeded then .ok () h' else .error (creationFailed executable name out) h' := by
  have hcommand := command_of_ok [password]
    (programs_requested hended (.createAccount name))
  change createWithProgram executable limit name ⟨password⟩ (h.noted _) = _
  refine (bind_apply_of_ok (mapFault_eq_ok_iff.2 hcommand) _).trans ?_
  cases hsucceeded : out.succeeded with
  | true =>
      simp [afterCreation, creationEnded, creation, hsucceeded, log_apply, Host.logged, Host.noted]
  | false =>
      simp [afterCreation, creationEnded, creation, hsucceeded, refuse, creationFailed, Host.noted]

theorem create_of_fault {e : Fault}
    (hended : h.programs h.journal.invocations (creation executable limit name password) h.tree =
      (.error e, t)) :
    create (.netUser executable limit) name ⟨password⟩ h =
      .error (creationFault executable name e)
        (afterCreation h t executable limit name password none []) := by
  have hcommand := command_of_error [password]
    (programs_requested hended (.createAccount name))
  change createWithProgram executable limit name ⟨password⟩ (h.noted _) = _
  refine (bind_apply_of_error (mapFault_of_error hcommand _) _).trans ?_
  cases e <;> simp [afterCreation, creation, creationFault, Host.noted]

/-! ## Two creations -/

theorem argumentsAside_afterCreation {status : Option Int} {es : Journal} :
    (afterCreation h t executable limit name password status es).ArgumentsAside
        (afterCreation h t executable limit name password' status es) ↔
      creationShown executable name password = creationShown executable name password' := by
  constructor
  · rintro ⟨j, hhost, hj⟩
    obtain rfl : _ = j := congrArg Host.journal hhost
    simp only [afterCreation, List.map_append, List.map_cons] at hj
    obtain ⟨-, hrest⟩ := List.cons.inj (List.append_cancel_left hj)
    have hline : startLine [executable, "user", name, password', "/add"] [password'] =
        startLine [executable, "user", name, password, "/add"] [password] := (List.cons.inj hrest).1
    simp only [startLine, Event.logged.injEq, LogRecord.mk.injEq, true_and, and_true,
      String.append_right_inj] at hline
    exact hline.symm
  · intro hshown
    refine ⟨_, rfl, ?_⟩
    have hline : startLine [executable, "user", name, password', "/add"] [password'] =
        startLine [executable, "user", name, password, "/add"] [password] := by
      rw [startLine, startLine]
      exact congrArg
        (fun shown => Event.logged
          { level := .debug, source := .commands, message := "Running: " ++ shown }) hshown.symm
    simp only [afterCreation, List.map_append, List.map_cons, hline]
    rfl

/-- The refusal of a creation that overran tells the password. -/
theorem password_eq_of_overrun
    (h : creationFault executable name
        (.timedOut [executable, "user", name, password, "/add"] (some limit)) =
      creationFault executable name
        (.timedOut [executable, "user", name, password', "/add"] (some limit))) :
    password = password' := by
  have hmessage := congrArg Fault.message h
  simp only [creationFault, createWithProgram.couldNotRun, Fault.refuseFrom, Fault.message,
    Refusal.because, Cause.message, overrunText] at hmessage
  have hquoted : Text.quoted password = Text.quoted password' := by
    simpa [Text.quotedList, String.intercalate_cons_cons] using hmessage
  exact Text.quoted_injective hquoted

/-- A password that is none of the other arguments is the only one that is hidden. -/
theorem creationShown_of_not_mem (hother : password ∉ [executable, "user", name, "/add"]) :
    creationShown executable name password =
      " ".intercalate [executable, "user", name, hiddenText, "/add"] := by
  simp only [List.mem_cons, List.not_mem_nil, or_false, not_or] at hother
  obtain ⟨hexecutable, huser, hname, hadd⟩ := hother
  simp [creationShown, preview, Ne.symm hexecutable, Ne.symm huser, Ne.symm hname, Ne.symm hadd]

end

/-- **What a creation shows of the password.**  Two creations for which the program ends in the same
way end alike and leave hosts that look alike exactly when the passwords are the same, or the program
did not overrun and the arguments are logged alike; and they are logged alike when neither password
is one of the other arguments. -/
theorem create_alike_iff (executable : String) (limit : Number) (name password password' : String)
    (h : Host) (ended : ScriptedEnd) (t : Tree)
    (hended : ∀ s ∈ [password, password'],
      h.programs h.journal.invocations (creation executable limit name s) h.tree =
        (ended.answer (creation executable limit name s), t)) :
    (EndsAlike Eq Host.ArgumentsAside (create (.netUser executable limit) name ⟨password⟩ h)
        (create (.netUser executable limit) name ⟨password'⟩ h) ↔
      password = password' ∨ ended ≠ .timeout ∧
        creationShown executable name password = creationShown executable name password') ∧
    (password ∉ [executable, "user", name, "/add"] →
      password' ∉ [executable, "user", name, "/add"] →
      creationShown executable name password = creationShown executable name password') := by
  refine ⟨?_, fun hother hother' => by
    rw [creationShown_of_not_mem hother, creationShown_of_not_mem hother']⟩
  have hfirst := hended password List.mem_cons_self
  have hsecond := hended password' (List.mem_cons_of_mem _ List.mem_cons_self)
  -- Equal passwords are logged alike, so without an overrun only the log decides.
  have hlog (hintime : ended ≠ .timeout) :
      creationShown executable name password = creationShown executable name password' ↔
        password = password' ∨ ended ≠ .timeout ∧
          creationShown executable name password = creationShown executable name password' := by
    constructor
    · exact fun hshown => .inr ⟨hintime, hshown⟩
    · rintro (rfl | ⟨-, hshown⟩)
      · rfl
      · exact hshown
  cases ended with
  | output out =>
      rw [create_of_output hfirst, create_of_output hsecond, ← hlog (by simp),
        ← argumentsAside_afterCreation]
      cases hsucceeded : out.succeeded with
      | true => exact endsAlike_ok_iff.trans (and_iff_right rfl)
      | false => exact endsAlike_error_iff.trans (and_iff_right rfl)
  | fault e =>
      rw [create_of_fault hfirst, create_of_fault hsecond, ← hlog (by simp),
        ← argumentsAside_afterCreation]
      exact endsAlike_error_iff.trans (and_iff_right rfl)
  | timeout =>
      rw [create_of_fault hfirst, create_of_fault hsecond, endsAlike_error_iff]
      constructor
      · rintro ⟨hsame, -⟩
        exact .inl (password_eq_of_overrun hsame)
      · rintro (rfl | ⟨hne, -⟩)
        · exact ⟨rfl, argumentsAside_afterCreation.2 rfl⟩
        · exact absurd rfl hne

/-- A host whose account management program ends in a fixed way. -/
def clerkHost (ended : ScriptedEnd) : Host where
  programs := Script.programs [{ pattern := ["net", "user"], result := ended }] false []

theorem clerkHost_programs (ended : ScriptedEnd) (password : String) :
    let i := creation "net" (.whole 60) "carol" password
    (clerkHost ended).programs (clerkHost ended).journal.invocations i (clerkHost ended).tree =
      (ended.answer i, (clerkHost ended).tree) := by
  cases ended <;> rfl

/-- A program that refuses a password by its policy does not show which one it was. -/
theorem create_alike_iff_carol :
    EndsAlike Eq Host.ArgumentsAside
      (create (.netUser "net" (.whole 60)) "carol" ⟨"S3cret!"⟩
        (clerkHost (.output { status := 2, stderr := "The password is too short." })))
      (create (.netUser "net" (.whole 60)) "carol" ⟨"hunter2"⟩
        (clerkHost (.output { status := 2, stderr := "The password is too short." }))) := by
  obtain ⟨hends, hshown⟩ := create_alike_iff "net" (.whole 60) "carol" "S3cret!" "hunter2"
    (clerkHost (.output { status := 2, stderr := "The password is too short." })) _ _
    fun password _ => clerkHost_programs _ password
  exact hends.2 (.inr ⟨by simp, hshown (by decide) (by decide)⟩)

/-- A creation may show which password was chosen: when the program overruns, the refusal tells it. -/
theorem not_always_created_alike :
    ¬ ∀ (executable : String) (limit : Number) (name password password' : String) (h : Host)
        (ended : ScriptedEnd) (t : Tree), password ≠ "" → password' ≠ "" →
      (∀ s ∈ [password, password'],
        h.programs h.journal.invocations (creation executable limit name s) h.tree =
          (ended.answer (creation executable limit name s), t)) →
      EndsAlike Eq Host.ArgumentsAside (create (.netUser executable limit) name ⟨password⟩ h)
        (create (.netUser executable limit) name ⟨password'⟩ h) := by
  intro halike
  have hends := halike "net" (.whole 60) "carol" "S3cret!" "hunter2" (clerkHost .timeout) .timeout _
    (by decide) (by decide) fun password _ => clerkHost_programs .timeout password
  rw [create_of_fault (clerkHost_programs .timeout "S3cret!"),
    create_of_fault (clerkHost_programs .timeout "hunter2"), endsAlike_error_iff] at hends
  exact absurd (password_eq_of_overrun hends.1) (by decide)

end IdentityStore

end Provisioning
