/-
# `Provisioning.Proofs.Host.Growth` — what a step does beside the changes it asks for

Working for a request, a backend logs, starts programs, calls the security
service, and edits the file tree and the tables of accounts, access lists and
groups.  `h.Proceeds h'` says that nothing else was done: no question, nothing
printed, no change asked for, no privilege given.

A preorder that tolerates as much is steady.  A step leads along a steady
relation as soon as the changes that it asks for do (`Allows`), so what a whole
run does to a host is a matter of these and of the privileges.  Most steps also
leave the tables of accounts and access lists alone (`h.Serves h'`), and lead
along every preorder that tolerates only that (`Serving`).

    Host.Grows C     no question, and only changes that `C` allows
    Host.Prints T    only texts that `T` allows are printed
    SameBy view      for a view that work does not touch
-/
import Provisioning.Proofs.Host.Leads

namespace Provisioning

namespace Journal

@[simp] theorem changes_append (j k : Journal) : changes (j ++ k) = j.changes ++ k.changes := by
  simp [changes]

@[simp] theorem prompts_append (j k : Journal) : prompts (j ++ k) = j.prompts ++ k.prompts := by
  simp [prompts]

@[simp] theorem programRuns_append (j k : Journal) :
    programRuns (j ++ k) = j.programRuns ++ k.programRuns := by simp [programRuns]

@[simp] theorem invocations_append (j k : Journal) :
    invocations (j ++ k) = j.invocations ++ k.invocations := by simp [invocations]

@[simp] theorem changes_asked (q : String) (a : Bool) : changes [.asked q a] = [] := rfl

@[simp] theorem prompts_asked (q : String) (a : Bool) : prompts [.asked q a] = [(q, a)] := rfl

theorem mem_changes {j : Journal} {c : Change} : c ∈ j.changes ↔ Event.requested c ∈ j := by
  simp only [changes, List.mem_filterMap]
  constructor
  · rintro ⟨e, he, hc⟩
    cases e with
    | requested c' =>
        cases hc
        exact he
    | _ => cases hc
  · intro h
    exact ⟨_, h, rfl⟩

end Journal

/-- `h'` has written down more than `h`: no question, and only changes that `C` allows. -/
def Host.Grows (C : Change → Prop) (h h' : Host) : Prop :=
  ∃ es : Journal, h'.journal = h.journal ++ es ∧ es.prompts = [] ∧ ∀ c ∈ es.changes, C c

namespace Host.Grows

variable {C D : Change → Prop} {h h' : Host}

theorem of_journal_eq (hj : h'.journal = h.journal) : h.Grows C h' :=
  ⟨[], by simpa using hj, rfl, by simp [Journal.changes]⟩

instance : IsPreorder Host (Host.Grows C) where
  refl h := of_journal_eq rfl
  trans := by
    rintro h h' h'' ⟨es, hj, hp, hc⟩ ⟨fs, hj', hp', hc'⟩
    refine ⟨es ++ fs, by rw [hj', hj, List.append_assoc], by simp [hp, hp'], ?_⟩
    intro c hmem
    rw [Journal.changes_append] at hmem
    exact (List.mem_append.1 hmem).elim (hc c) (hc' c)

theorem mono (hg : h.Grows C h') (hCD : ∀ c, C c → D c) : h.Grows D h' := by
  obtain ⟨es, hj, hp, hc⟩ := hg
  exact ⟨es, hj, hp, fun c hmem => hCD c (hc c hmem)⟩

/-- A host that has grown by no change has written down no change. -/
theorem exists_quiet (hg : h.Grows (fun _ => False) h') :
    ∃ es : Journal, h'.journal = h.journal ++ es ∧ es.prompts = [] ∧ es.changes = [] := by
  obtain ⟨es, hj, hp, hc⟩ := hg
  exact ⟨es, hj, hp, List.eq_nil_iff_forall_not_mem.2 hc⟩

end Host.Grows

/-- `h'` has written down more than `h`, and printed only texts that `T` allows. -/
def Host.Prints (T : String → Prop) (h h' : Host) : Prop :=
  ∃ es : Journal, h'.journal = h.journal ++ es ∧
    ∀ text, .printed text ∈ es ∨ .printedError text ∈ es → T text

instance {T : String → Prop} : IsPreorder Host (Host.Prints T) where
  refl h := ⟨[], by simp, by simp⟩
  trans := by
    rintro h h' h'' ⟨es, hj, ht⟩ ⟨fs, hj', ht'⟩
    refine ⟨es ++ fs, by rw [hj', hj, List.append_assoc], fun text hmem => ?_⟩
    rw [List.mem_append, List.mem_append, or_or_or_comm] at hmem
    exact hmem.elim (ht text) (ht' text)

/-! ## Work that asks for nothing -/

/-- A call of the security service that gives no right. -/
def LsaCall.isReading : LsaCall → Bool
  | .addRights _ _ => false
  | _ => true

/-- What a backend writes down of its own, when it gives no privilege. -/
def Event.isRoutine : Event → Bool
  | .logged _ => true
  | .started _ _ => true
  | .called call _ => call.isReading
  | .chowned _ _ _ => true
  | _ => false

/-- `h'` is `h` after work that asked for no change and gave no privilege. -/
def Host.Proceeds (h h' : Host) : Prop :=
  ∃ (es : Journal) (t : Tree) (accounts : AccountTable) (access : AccessTable)
    (cgroups : CgroupTable) (validated : Bool),
    h' = { h with
      tree := t, accounts, access, cgroups, elevationValidated := validated,
      journal := h.journal ++ es } ∧
    ∀ e ∈ es, e.isRoutine = true

/-- `h'` is `h` after such work that was done on the file tree and the groups alone. -/
def Host.Serves (h h' : Host) : Prop :=
  ∃ (es : Journal) (t : Tree) (cgroups : CgroupTable) (validated : Bool),
    h' = { h with
      tree := t, cgroups, elevationValidated := validated, journal := h.journal ++ es } ∧
    ∀ e ∈ es, e.isRoutine = true

/-- A preorder along which work proceeds. -/
class Steady (R : Host → Host → Prop) : Prop extends IsPreorder Host R where
  of_proceeds : ∀ {h h' : Host}, h.Proceeds h' → R h h'

/-- A preorder along which work on the file tree and the groups is done. -/
class Serving (R : Host → Host → Prop) : Prop extends IsPreorder Host R where
  of_serves : ∀ {h h' : Host}, h.Serves h' → R h h'

namespace Host.Serves

variable {h h' : Host}

theorem proceeds (hserves : h.Serves h') : h.Proceeds h' := by
  obtain ⟨es, t, cgroups, validated, rfl, hroutine⟩ := hserves
  exact ⟨es, t, h.accounts, h.access, cgroups, validated, rfl, hroutine⟩

theorem of_journal_eq (hj : h'.journal = h.journal)
    (hsame : h' = { h with
      tree := h'.tree, cgroups := h'.cgroups, elevationValidated := h'.elevationValidated,
      journal := h'.journal }) : h.Serves h' :=
  ⟨[], h'.tree, h'.cgroups, h'.elevationValidated, by rw [List.append_nil, ← hj]; exact hsame,
    by simp⟩

/-- Work with one event written down, and another file tree perhaps. -/
theorem of_event {e : Event} (he : e.isRoutine = true) (t : Tree) :
    h.Serves { h with tree := t, journal := h.journal ++ [e] } :=
  ⟨[e], t, h.cgroups, h.elevationValidated, rfl, by simpa using he⟩

theorem accounts_eq (hserves : h.Serves h') : h'.accounts = h.accounts := by
  obtain ⟨_, _, _, _, rfl, _⟩ := hserves
  rfl

end Host.Serves

instance {R : Host → Host → Prop} [Steady R] : Serving R where
  of_serves hserves := Steady.of_proceeds hserves.proceeds

namespace Host.Proceeds

variable {h h' : Host}

theorem of_journal_eq (hj : h'.journal = h.journal)
    (hsame : h' = { h with
      tree := h'.tree, accounts := h'.accounts, access := h'.access, cgroups := h'.cgroups,
      elevationValidated := h'.elevationValidated, journal := h'.journal }) : h.Proceeds h' :=
  ⟨[], h'.tree, h'.accounts, h'.access, h'.cgroups, h'.elevationValidated,
    by rw [List.append_nil, ← hj]; exact hsame, by simp⟩

theorem programs_eq (hproceeds : h.Proceeds h') : h'.programs = h.programs := by
  obtain ⟨_, _, _, _, _, _, rfl, _⟩ := hproceeds
  rfl

end Host.Proceeds

instance : Steady Host.Proceeds where
  refl h := .of_journal_eq rfl rfl
  trans := by
    rintro h _ _ ⟨es, t, accounts, access, cgroups, validated, rfl, hroutine⟩
      ⟨fs, t', accounts', access', cgroups', validated', rfl, hroutine'⟩
    refine ⟨es ++ fs, t', accounts', access', cgroups', validated',
      by simp only [List.append_assoc], fun e he => ?_⟩
    exact (List.mem_append.1 he).elim (hroutine e) (hroutine' e)
  of_proceeds hproceeds := hproceeds

instance {C : Change → Prop} : Steady (Host.Grows C) where
  of_proceeds := by
    rintro h _ ⟨es, t, accounts, access, cgroups, validated, rfl, hroutine⟩
    refine ⟨es, rfl, ?_, fun c hmem => ?_⟩
    · refine List.filterMap_eq_nil_iff.2 fun e he => ?_
      cases e with
      | asked q a => exact nomatch hroutine _ he
      | _ => rfl
    · exact nomatch hroutine _ (Journal.mem_changes.1 hmem)

instance {T : String → Prop} : Steady (Host.Prints T) where
  of_proceeds := by
    rintro h _ ⟨es, t, accounts, access, cgroups, validated, rfl, hroutine⟩
    refine ⟨es, rfl, fun text hmem => ?_⟩
    rcases hmem with hmem | hmem <;> exact nomatch hroutine _ hmem

instance : Serving (Run.SameBy Host.accounts) where
  of_serves hserves := hserves.accounts_eq

instance : Serving (Run.SameBy Host.access) where
  of_serves := by
    rintro h h' ⟨_, _, _, _, rfl, _⟩
    rfl

instance : Serving (Run.SameBy Host.rights) where
  of_serves := by
    rintro h h' ⟨_, _, _, _, rfl, _⟩
    rfl

/-- A view of the fields that work leaves alone. -/
theorem steady_sameBy {τ : Type} {view : Host → τ}
    (hview : ∀ h h' : Host, h.Proceeds h' → view h' = view h) : Steady (Run.SameBy view) where
  of_proceeds hproceeds := hview _ _ hproceeds

namespace Run

variable {α : Type} {R : Host → Host → Prop}

/-- Asking for the change leads along `R`. -/
def Allows (R : Host → Host → Prop) (c : Change) : Prop := Leads R (note (.requested c))

/-- Giving privileges leads along `R`, in the table and by a call of the security service. -/
def AllowsPrivileges (R : Host → Host → Prop) : Prop :=
  (∀ (h : Host) (rights : RightsTable), R h { h with rights }) ∧
    ∀ (h : Host) (handle : Nat) (names : List String) (failure : Option Int)
      (lsaAccounts : LsaAccounts),
      R h { h with lsaAccounts, journal := h.journal ++ [.called (.addRights handle names) failure] }

theorem allows_grows {C : Change → Prop} {c : Change} (hc : C c) : Allows (Host.Grows C) c :=
  fun _ => ⟨[.requested c], rfl, rfl, by simpa [Journal.changes] using hc⟩

theorem allowsPrivileges_grows {C : Change → Prop} : AllowsPrivileges (Host.Grows C) :=
  ⟨fun _ _ => Host.Grows.of_journal_eq rfl,
    fun _ handle names failure _ =>
      ⟨[.called (.addRights handle names) failure], rfl, rfl, by simp [Journal.changes]⟩⟩

theorem allows_prints {T : String → Prop} (c : Change) : Allows (Host.Prints T) c :=
  fun _ => ⟨[.requested c], rfl, by simp⟩

theorem allowsPrivileges_prints {T : String → Prop} : AllowsPrivileges (Host.Prints T) :=
  ⟨fun _ _ => ⟨[], by simp, by simp⟩,
    fun _ handle names failure _ => ⟨[.called (.addRights handle names) failure], rfl, by simp⟩⟩

/-- The call of the security service that gives rights. -/
theorem leads_addRights (hprivileges : AllowsPrivileges R) (handle : Nat) (names : List String)
    (answer : Host → Nat → LsaAnswer α) : Leads R (callLsa (.addRights handle names) answer) :=
  fun h => hprivileges.2 h handle names _ _

/-! ## The primitives -/

section
variable [Serving R]

theorem steady_log (level : LogLevel) (source : LogSource) (message : String) :
    Leads R (log level source message) := fun h =>
  Serving.of_serves (.of_event (h := h) (by rfl) h.tree)

theorem serving_modify {change : Host → Host} (hserves : ∀ h : Host, h.Serves (change h)) :
    Leads R (modify change : Run Unit) := fun h => Serving.of_serves (hserves h)

theorem steady_mkdir (p : Path) : Leads R (mkdir p) := by
  intro h
  refine Serving.of_serves ?_
  unfold hostAfter mkdir
  cases h.tree.mkdir h.euid p <;> exact .of_journal_eq rfl rfl

theorem steady_chown (start p : Path) (uid : Int) : Leads R (chown start p uid) := by
  intro h
  unfold hostAfter chown
  cases h.tree.chown p uid with
  | ok t => exact Serving.of_serves (.of_event rfl t)
  | error e => exact refl_of R h

theorem steady_startProgram (args : List String) (limit : Option Number) :
    Leads R (startProgram args limit) := by
  intro h
  unfold hostAfter startProgram
  dsimp only
  cases (h.programs h.journal.invocations ⟨args, limit⟩ h.tree).1 with
  | ok out => exact Serving.of_serves (.of_event rfl _)
  | error e => exact Serving.of_serves (.of_event rfl _)

theorem steady_callLsa {call : LsaCall} (hreads : call.isReading = true)
    {answer : Host → Nat → LsaAnswer α} (hkeeps : ∀ h n, (answer h n).accounts = h.lsaAccounts) :
    Leads R (callLsa call answer) := by
  intro h
  have hafter : (callLsa call answer).hostAfter h =
      { h with
        journal := h.journal ++ [.called call (answer h h.journal.lsaCalls.length).failure] } := by
    unfold hostAfter callLsa
    dsimp only
    rw [hkeeps]
  rw [hafter]
  exact Serving.of_serves (.of_event (e := .called call _) hreads h.tree)

theorem steady_command (args : List String) (limit : Option Number) (secrets : List String) :
    Leads R (command args limit secrets) := by
  refine Leads.bind (steady_log _ _ _) fun _ => (steady_startProgram args limit).bind fun out => ?_
  cases args with
  | nil => exact leads_throw _
  | cons program rest => exact Leads.bind (steady_log _ _ _) fun _ => leads_pure _

end

end Run

end Provisioning
