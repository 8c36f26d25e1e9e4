/-
# `Provisioning.Host.Basic` — a host, and steps on it

A host is everything that a step reads or changes: the file tree, the users,
the programs, the security service, the tables kept in memory, and the
journal.  `Run α` is a step: from a host it ends in a value or in a failure,
and in either case in a host, so what a failed step had already done is not
lost.

The primitives of this module are the only ones that touch the file tree, the
programs and the security service, and each writes down what it did.
-/
import Provisioning.Account.Table
import Provisioning.Cgroup.Table
import Provisioning.Directory.Table
import Provisioning.Host.Console
import Provisioning.Host.Event
import Provisioning.Privilege.Table

namespace Provisioning

/-- A host. -/
structure Host where
  tree : Tree := {}
  /-- Users and their numbers. -/
  passwd : List (String × Int) := [("root", 0)]
  /-- The user at the terminal, or why nobody can tell. -/
  login : Except LoginFailure String := .ok "root"
  /-- What goes wrong when a text is put on the output. -/
  outputFailure : String → Option OutputFailure := fun _ => none
  environment : Table String String := {}
  /-- The user whose rights the steps have. -/
  euid : Int := 0
  /-- The executables that can be found. -/
  executables : List String := ["sudo"]
  /-- The name of the operating system. -/
  system : String := "linux"
  programs : Programs := Programs.idle
  lsa : LsaService := LsaService.plain
  lsaAccounts : LsaAccounts := {}
  accounts : AccountTable := {}
  rights : RightsTable := {}
  access : AccessTable := {}
  cgroups : CgroupTable := {}
  /-- The operator has proved to the elevating program who they are. -/
  elevationValidated : Bool := false
  journal : Journal := []

/-- A step on a host. -/
abbrev Run := EStateM Fault Host

/-- Someone who can be asked to confirm a plan.  While the answer is awaited the host may change. -/
abbrev Confirmation := String → Run Bool

namespace Run

variable {α β : Type}

/-! ## One step after another -/

/-- The second step goes on where the first one ended, and a failure of the first ends both. -/
theorem bind_apply (act : Run α) (next : α → Run β) (h : Host) :
    (act >>= next) h =
      match act h with
      | .ok a h' => next a h'
      | .error e h' => .error e h' := by
  simp only [bind, EStateM.bind]
  cases act h <;> rfl

@[simp] theorem pure_apply (a : α) (h : Host) : (pure a : Run α) h = .ok a h := rfl

@[simp] theorem throw_apply (e : Fault) (h : Host) : (throw e : Run α) h = .error e h := rfl

theorem bind_apply_of_ok {act : Run α} {h h' : Host} {a : α} (hact : act h = .ok a h')
    (next : α → Run β) : (act >>= next) h = next a h' := by rw [bind_apply, hact]

theorem bind_apply_of_error {act : Run α} {h h' : Host} {e : Fault} (hact : act h = .error e h')
    (next : α → Run β) : (act >>= next) h = .error e h' := by rw [bind_apply, hact]

/-- Two steps end in a value exactly when both do, the second on the host that the first leaves. -/
theorem bind_apply_eq_ok_iff {act : Run α} {next : α → Run β} {h h'' : Host} {b : β} :
    (act >>= next) h = .ok b h'' ↔ ∃ a h', act h = .ok a h' ∧ next a h' = .ok b h'' := by
  rw [bind_apply]
  cases hact : act h with
  | ok a h' =>
    constructor
    · intro hnext
      exact ⟨a, h', rfl, hnext⟩
    · rintro ⟨_, _, hok, hnext⟩
      cases hok
      exact hnext
  | error e h' =>
    constructor
    · intro hnext
      exact nomatch hnext
    · rintro ⟨_, _, hok, _⟩
      exact nomatch hok

/-! ## Writing down and ending -/

/-- Write an event down. -/
def note (e : Event) : Run Unit := modify fun h => { h with journal := h.journal ++ [e] }

/-- Log a message. -/
def log (level : LogLevel) (source : LogSource) (message : String) : Run Unit :=
  note (.logged { level, source, message })

/-- End with a refusal. -/
def refuse (kind : RefusalKind) (message : String) (details : List (String × Detail)) : Run α :=
  throw (.refuse kind message details)

/-- The value of a computation that may fail. -/
def ofExcept : Except Fault α → Run α
  | .ok a => pure a
  | .error e => throw e

/-- Put a text on the output. -/
def print (text : String) : Run Unit := fun h =>
  match h.outputFailure text with
  | none => note (.printed text) h
  | some f => .error f.fault h

/-- A step with some of its failures replaced; the host stays as the step left it. -/
def mapFault (replace : Fault → Option Fault) (act : Run α) : Run α := fun h =>
  match act h with
  | .ok a h' => .ok a h'
  | .error e h' => .error ((replace e).getD e) h'

/-- Replacing failures keeps every value. -/
theorem mapFault_eq_ok_iff {replace : Fault → Option Fault} {act : Run α} {h h' : Host} {a : α} :
    mapFault replace act h = .ok a h' ↔ act h = .ok a h' := by
  unfold mapFault
  cases act h with
  | ok b h'' => rfl
  | error e h'' =>
    constructor
    · intro hok
      exact nomatch hok
    · intro hok
      exact nomatch hok

/-- A step whose refusals are values; every other failure stays one. -/
def catchRefusal (act : Run α) : Run (Except Refusal α) := fun h =>
  match act h with
  | .ok a h' => .ok (.ok a) h'
  | .error (.refused r) h' => .ok (.error r) h'
  | .error e h' => .error e h'

/-! ## The file tree -/

/-- Look at an entry of the file tree. -/
def stat (p : Path) : Run Node := fun h =>
  match h.tree.stat p with
  | .ok n => .ok n h
  | .error e => .error (.system e) h

/-- The entry at a path, if there is one.  That it is absent is an answer; that looking is denied is
a failure. -/
def entryAt (p : Path) : Run (Option Node) := fun h =>
  match h.tree.stat p with
  | .ok n => .ok (some n) h
  | .error e => if e.number? = some SystemError.noEntry then .ok none h else .error (.system e) h

/-- There is something at a path. -/
def pathExists (p : Path) : Run Bool := do
  let n ← entryAt p
  return n.isSome

/-- There is a directory at a path. -/
def isDirectory (p : Path) : Run Bool := do
  let n ← entryAt p
  return n.any fun n => n.type == .directory

/-- Make a directory, with the rights of the process. -/
def mkdir (p : Path) : Run Unit := fun h =>
  match h.tree.mkdir h.euid p with
  | .ok t => .ok () { h with tree := t }
  | .error e => .error (.system e) h

/-- Give an entry, met on the way from `start`, to a user. -/
def chown (start p : Path) (uid : Int) : Run Unit := fun h =>
  match h.tree.chown p uid with
  | .ok t => .ok () { h with tree := t, journal := h.journal ++ [.chowned start p uid] }
  | .error e => .error (.system e) h

/-! ## Users -/

/-- The number of a user.  A name is one that the user database can be asked for, without the null
character. -/
def uidOf? (name : String) : Run (Option Int) := do
  let h ← get
  return h.passwd.lookup name

/-- The user at the terminal. -/
def login : Run String := do
  let h ← get
  match h.login with
  | .ok name => return name
  | .error f => throw f.fault

theorem login_apply (h : Host) :
    login h =
      match h.login with
      | .ok name => .ok name h
      | .error f => .error f.fault h := by
  show (match h.login with | .ok name => pure name | .error f => throw f.fault : Run String) h = _
  cases h.login <;> rfl

/-- The name of the first user with a number. -/
def userOf? (uid : Int) : Run (Option String) := do
  let h ← get
  return (h.passwd.find? fun u => u.2 == uid).map Prod.fst

/-! ## Programs -/

/-- Start a program and wait for its end. -/
def startProgram (args : List String) (limit : Option Number) : Run ProgramOutput := fun h =>
  let invocation : Invocation := ⟨args, limit⟩
  let ended := h.programs h.journal.invocations invocation h.tree
  let after (status : Option Int) : Host :=
    { h with tree := ended.2, journal := h.journal ++ [.started invocation status] }
  match ended.1 with
  | .ok out => .ok out (after (some out.status))
  | .error e => .error e (after none)

/-! ## The security service -/

/-- Make a call of the security service and take its answer, given how many calls came before. -/
def callLsa (call : LsaCall) (answer : Host → Nat → LsaAnswer α) : Run α := fun h =>
  let answered := answer h h.journal.lsaCalls.length
  .ok answered.value
    { h with
      lsaAccounts := answered.accounts
      journal := h.journal ++ [.called call answered.failure] }

end Run

end Provisioning
