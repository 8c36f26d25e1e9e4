/-
# `Provisioning.Proofs.Cgroup.Backends` — direct calls, and calls through the elevating program

A process with the rights of root touches the file tree itself; any other has
an elevating program do it.  The one tries and reads the error of the host,
the other looks first and then sees only whether the program succeeded.  Here
the elevating program does what root would have done, or nothing when root
would have failed (`Programs.Elevates`), and no entry denies anything.

    at the path     at its parent    direct               elevated
    directory                        was there            was there
    file            directory        was there            permission denied
    file            anything else    was there            configuration error
    nothing         directory        made                 made
    nothing         file             not a directory      configuration error
    nothing         nothing          configuration error  configuration error

A path at which there is nothing, given to a user with a number, is no entry
for the direct call and permission denied for the elevated one.

**Stated here.**  What either answers to a call, and which file tree it leaves,
as functions of the tree (`directAnswer`, `elevatedAnswer`, `TreeCall.effect`).
Over any calls the two leave the same trees, and answer alike exactly if no call
meets one of the three odd cases (`backends_agree_iff`).
-/
import Provisioning.Proofs.Cgroup.Turn
import Provisioning.Proofs.Host.Command

namespace Provisioning

open Run

/-! ## The sort of a failure -/

/-- What failures are told apart by. -/
inductive FaultSort where
  | refused (kind : RefusalKind)
  | system (number : Option Int)
  | timedOut
  | interrupted
  | invalid
  | badValue
  | failed
  | outOfRange
  | misused
  deriving DecidableEq

/-- The number by which errors of the operating system are told apart.  The two that lack rights are
one sort, and so are all errors without a sort of their own. -/
def SystemError.sort (e : SystemError) : Option Int :=
  if e.isRefused then some accessDenied
  else e.number?.filter [noEntry, alreadyExists, notDirectory].contains

/-- The sort of a failure. -/
def Fault.sort : Fault → FaultSort
  | .refused r => .refused r.kind
  | .system e => .system e.sort
  | .timedOut _ _ => .timedOut
  | .interrupted => .interrupted
  | .invalid _ _ => .invalid
  | .badValue _ => .badValue
  | .failed _ => .failed
  | .outOfRange => .outOfRange
  | .misused _ => .misused

/-! ## What root does -/

namespace Tree

/-- No entry denies anything. -/
def Undenied (t : Tree) : Prop := ∀ ⦃q : Path⦄ ⦃n : Node⦄, t.get? q = some n → n.denies = {}

/-- Give a path, and everything that a walk from it meets, to `uid`. -/
def chownWithin (t : Tree) (p : Path) (uid : Int) : Except SystemError Tree :=
  (t.reach p).foldlM (fun t q => t.chown q uid) t

variable {t t' : Tree} {p q : Path} {n : Node} {uid : Int}

theorem isSome_of_mem_reach (hthere : t.get? p = some n) (hq : q ∈ t.reach p) :
    (t.get? q).isSome = true := by
  rcases List.mem_cons.1 hq with rfl | hmet
  · rw [hthere]
    rfl
  · exact (mem_walk_iff.1 hmet).2.isSome

theorem undenied_empty : Undenied {} := fun _ _ hthere => nomatch hthere

theorem Undenied.put (hundenied : t.Undenied) (hn : n.denies = {}) (q : Path) :
    Tree.Undenied (t.put q n) := by
  intro r m hm
  rw [Table.get?_put] at hm
  split at hm
  · cases hm
    exact hn
  · exact hundenied hm

theorem Undenied.givable_of_isSome (hundenied : t.Undenied) (hsome : (t.get? q).isSome = true) :
    t.Givable q := by
  obtain ⟨n, hthere⟩ := Option.isSome_iff_exists.1 hsome
  exact ⟨n, hthere, by rw [hundenied hthere]⟩

/-- Where nothing is denied, what is at a path and at its parent decides whether a directory can be
made. -/
theorem Undenied.mkdir_eq (hundenied : t.Undenied) (uid : Int) (p : Path) :
    t.mkdir uid p =
      match t.typeAt p, t.typeAt p.parent with
      | some _, _ => .error (.about SystemError.alreadyExists p.toString)
      | none, some .directory => .ok (t.put p { uid })
      | none, some .file => .error (.about SystemError.notDirectory p.toString)
      | none, none => .error (.about SystemError.noEntry p.toString) := by
  unfold mkdir typeAt
  cases hthere : t.get? p with
  | some n => rfl
  | none =>
      cases habove : t.get? p.parent with
      | none => rfl
      | some m =>
          have hallowed : m.denies.mkdir = false := by rw [hundenied habove]
          cases htype : m.type <;> simp [htype, hallowed]

/-- Turns on a tree that denies nothing leave one. -/
theorem Advances.undenied (hadvances : Advances uid t t') (hundenied : t.Undenied) :
    t'.Undenied := by
  intro q m hm
  cases hthere : t.get? q with
  | none => exact (hadvances.fresh hthere hm).2
  | some n =>
      obtain ⟨m', hm', -, hdenies, -⟩ := hadvances.kept hthere
      rw [hm] at hm'
      cases hm'
      exact hdenies.trans (hundenied hthere)

theorem chown_of_givable (hgivable : t.Givable q) (uid : Int) :
    t.chown q uid = .ok (t.give uid q) := by
  obtain ⟨n, hthere, hallowed⟩ := hgivable
  unfold chown give
  rw [hthere]
  simp only [hallowed]
  rfl

theorem foldlM_chown_of_givable : ∀ {qs : List Path} {t : Tree}, (∀ q ∈ qs, t.Givable q) →
    qs.foldlM (fun t q => t.chown q uid) t = .ok (t.giveAll uid qs) := by
  intro qs
  induction qs with
  | nil =>
      intro t _
      rfl
  | cons q qs ih =>
      intro t hall
      have hgiven := chown_of_givable (hall q List.mem_cons_self) uid
      have hrest : ∀ r ∈ qs, (t.give uid q).Givable r := fun r hr =>
        (t.givable_give uid q r).2 (hall r (List.mem_cons_of_mem _ hr))
      rw [List.foldlM_cons, hgiven]
      exact ih hrest

theorem chownWithin_of_there (hundenied : t.Undenied) (hthere : t.get? p = some n) :
    t.chownWithin p uid = .ok (t.giveAll uid (t.reach p)) :=
  foldlM_chown_of_givable fun _ hq => hundenied.givable_of_isSome (isSome_of_mem_reach hthere hq)

theorem chownWithin_of_absent (habsent : t.get? p = none) :
    t.chownWithin p uid = .error (.about SystemError.noEntry p.toString) := by
  have hrefused : t.chown p uid = .error (.about SystemError.noEntry p.toString) := by
    unfold chown
    rw [habsent]
  rw [chownWithin, reach, List.foldlM_cons, hrefused]
  rfl

end Tree

/-! ## A program that does it -/

namespace Programs

/-- Whatever was started before, the program of `args` does the call, and fails without effect where
the call fails. -/
def Performs (programs : Programs) (args : List String)
    (call : Tree → Except SystemError Tree) : Prop :=
  ∀ (earlier : List Invocation) (limit : Option Number) (t : Tree), ∃ out,
    match call t with
    | .ok t' => programs earlier ⟨args, limit⟩ t = (.ok out, t') ∧ out.status = 0
    | .error _ => programs earlier ⟨args, limit⟩ t = (.ok out, t) ∧ out.status ≠ 0

/-- The program elevates: it takes everyone for the operator, and makes the calls of root. -/
structure Elevates (programs : Programs) (executable : String) (passwd : List (String × Int)) :
    Prop where
  proves : programs.Performs [executable, "-v"] .ok
  makes : ∀ path : Path,
    programs.Performs [executable, "-n", "mkdir", path.toString] (·.mkdir 0 path)
  gives : ∀ (path : Path) (owner : String) (uid : Int), passwd.lookup owner = some uid →
    programs.Performs [executable, "-n", "chown", "-R", owner, path.toString]
      (·.chownWithin path uid)

/-- How a program ends that makes a call. -/
def ending (call : Tree → Except SystemError Tree) (t : Tree) : Except Fault ProgramOutput × Tree :=
  match call t with
  | .ok t' => (.ok {}, t')
  | .error e => (.ok { status := 1, stderr := e.toString }, t)

/-- Programs among which every executable elevates. -/
def elevating (passwd : List (String × Int)) : Programs := fun _ invocation t =>
  match invocation.args with
  | [_, _] => (.ok {}, t)
  | [_, _, _, path] => ending (·.mkdir 0 (.ofString path)) t
  | [_, _, _, _, owner, path] =>
    ending (fun t => t.chownWithin (.ofString path) ((passwd.lookup owner).getD 0)) t
  | _ => (.ok { status := 1 }, t)

theorem performs_of_ending {programs : Programs} {args : List String}
    {call : Tree → Except SystemError Tree}
    (hends : ∀ earlier limit t, programs earlier ⟨args, limit⟩ t = ending call t) :
    programs.Performs args call := by
  intro earlier limit t
  rw [hends, ending]
  cases call t with
  | ok t' => exact ⟨{}, rfl, rfl⟩
  | error e => exact ⟨{ status := 1, stderr := e.toString }, rfl, Int.one_ne_zero⟩

theorem elevates_elevating (executable : String) (passwd : List (String × Int)) :
    (elevating passwd).Elevates executable passwd where
  proves := performs_of_ending fun _ _ _ => rfl
  makes path := performs_of_ending fun _ _ t => by
    show ending (·.mkdir 0 (.ofString path.toString)) t = _
    rw [Path.ofString_toString]
  gives path owner uid hnumber := performs_of_ending fun _ _ t => by
    show ending (fun t =>
      t.chownWithin (.ofString path.toString) ((passwd.lookup owner).getD 0)) t = _
    rw [Path.ofString_toString, hnumber]
    rfl

end Programs

/-! ## Calls and their answers -/

/-- A call of a backend. -/
inductive TreeCall where
  | ensureDirectory (path : Path)
  | changeOwner (path : Path) (owner : String)

/-- What a backend answers: a value, if the call has one, or a failure of some sort. -/
abbrev TreeAnswer := Except FaultSort (Option Bool)

namespace TreeCall

/-- The file tree after a call. -/
def effect (passwd : List (String × Int)) : TreeCall → Tree → Tree
  | .ensureDirectory path, t => (t.mkdir 0 path).toOption.getD t
  | .changeOwner path owner, t =>
    match passwd.lookup owner with
    | none => t
    | some uid => (t.chownWithin path uid).toOption.getD t

/-- The call is one that the two backends answer differently. -/
def Odd (passwd : List (String × Int)) : TreeCall → Tree → Prop
  | .ensureDirectory path, t =>
    t.typeAt path = some .file ∨ t.typeAt path = none ∧ t.typeAt path.parent = some .file
  | .changeOwner path owner, t => t.typeAt path = none ∧ passwd.lookup owner ≠ none

/-- One of the calls is such a one when its turn comes. -/
def OddAmong (passwd : List (String × Int)) : List TreeCall → Tree → Prop
  | [], _ => False
  | c :: cs, t => c.Odd passwd t ∨ OddAmong passwd cs (c.effect passwd t)

instance (passwd : List (String × Int)) : ∀ (c : TreeCall) (t : Tree), Decidable (c.Odd passwd t)
  | .ensureDirectory _, _ => inferInstanceAs (Decidable (_ ∨ _))
  | .changeOwner _ _, _ => inferInstanceAs (Decidable (_ ∧ _))

instance decidableOddAmong (passwd : List (String × Int)) :
    ∀ (cs : List TreeCall) (t : Tree), Decidable (OddAmong passwd cs t)
  | [], _ => inferInstanceAs (Decidable False)
  | _ :: cs, _ =>
    have := decidableOddAmong passwd cs
    inferInstanceAs (Decidable (_ ∨ _))

end TreeCall

/-- A call leaves a tree that denies nothing if it finds one. -/
theorem TreeCall.undenied_effect (passwd : List (String × Int)) (c : TreeCall) {t : Tree}
    (hundenied : t.Undenied) : (c.effect passwd t).Undenied := by
  cases c with
  | ensureDirectory path =>
      simp only [TreeCall.effect, hundenied.mkdir_eq]
      split
      · exact hundenied
      · exact hundenied.put rfl path
      · exact hundenied
      · exact hundenied
  | changeOwner path owner =>
      unfold TreeCall.effect
      dsimp only
      split
      · exact hundenied
      · cases hthere : t.get? path with
        | none =>
            rw [Tree.chownWithin_of_absent hthere]
            exact hundenied
        | some n =>
            rw [Tree.chownWithin_of_there hundenied hthere]
            exact (Tree.Advances.giveAll t _ _).undenied hundenied

/-- The answer of direct calls, as root. -/
def directAnswer (passwd : List (String × Int)) : TreeCall → Tree → TreeAnswer
  | .ensureDirectory path, t =>
    match t.typeAt path, t.typeAt path.parent with
    | some _, _ => .ok (some false)
    | none, some .directory => .ok (some true)
    | none, some .file => .error (.system (some SystemError.notDirectory))
    | none, none => .error (.refused .configurationError)
  | .changeOwner path owner, t =>
    match passwd.lookup owner, t.typeAt path with
    | none, _ => .error (.refused .unknownIdentity)
    | some _, some _ => .ok none
    | some _, none => .error (.system (some SystemError.noEntry))

/-- The answer of calls through the elevating program. -/
def elevatedAnswer (passwd : List (String × Int)) : TreeCall → Tree → TreeAnswer
  | .ensureDirectory path, t =>
    match t.typeAt path, t.typeAt path.parent with
    | some .directory, _ => .ok (some false)
    | some .file, some .directory => .error (.refused .permissionDenied)
    | none, some .directory => .ok (some true)
    | _, _ => .error (.refused .configurationError)
  | .changeOwner path owner, t =>
    match passwd.lookup owner, t.typeAt path with
    | none, _ => .error (.refused .unknownIdentity)
    | some _, some _ => .ok none
    | some _, none => .error (.refused .permissionDenied)

/-- Calls with their answers and the trees they leave, where `answer` says what is answered. -/
def expected (answer : TreeCall → Tree → TreeAnswer) (passwd : List (String × Int)) :
    List TreeCall → Tree → List (TreeAnswer × Tree)
  | [], _ => []
  | c :: cs, t => (answer c t, c.effect passwd t) :: expected answer passwd cs (c.effect passwd t)

section
variable (passwd : List (String × Int))

theorem map_snd_expected (answer answer' : TreeCall → Tree → TreeAnswer) :
    ∀ (cs : List TreeCall) (t : Tree),
      (expected answer passwd cs t).map Prod.snd = (expected answer' passwd cs t).map Prod.snd := by
  intro cs
  induction cs with
  | nil =>
      intro t
      rfl
  | cons c cs ih =>
      intro t
      rw [expected, expected, List.map_cons, List.map_cons, ih]

/-- The two answers differ exactly for the odd calls. -/
theorem directAnswer_eq_iff (c : TreeCall) (t : Tree) :
    directAnswer passwd c t = elevatedAnswer passwd c t ↔ ¬ c.Odd passwd t := by
  cases c with
  | ensureDirectory path =>
      simp only [directAnswer, elevatedAnswer, TreeCall.Odd]
      generalize t.typeAt path = there, t.typeAt path.parent = above
      rcases there with _ | _ | _ <;> rcases above with _ | _ | _ <;> simp
  | changeOwner path owner =>
      simp only [directAnswer, elevatedAnswer, TreeCall.Odd]
      generalize passwd.lookup owner = number, t.typeAt path = there
      rcases number with _ | _ <;> rcases there with _ | _ <;> simp

theorem expected_eq_iff : ∀ (cs : List TreeCall) (t : Tree),
    expected (directAnswer passwd) passwd cs t = expected (elevatedAnswer passwd) passwd cs t ↔
      ¬ TreeCall.OddAmong passwd cs t := by
  intro cs
  induction cs with
  | nil =>
      intro t
      exact iff_of_true rfl id
  | cons c cs ih =>
      intro t
      rw [expected, expected, List.cons_eq_cons, Prod.mk.injEq, ih, directAnswer_eq_iff,
        TreeCall.OddAmong, not_or]
      simp

end

/-! ## What a backend answers -/

namespace CgroupFilesystem

/-- The call, made by a backend. -/
def perform (fs : CgroupFilesystem) : TreeCall → Run (Option Bool)
  | .ensureDirectory path => do
    let isNew ← fs.ensureDirectory path
    return some isNew
  | .changeOwner path owner => do
    fs.changeOwner path owner
    return none

/-- What is seen of the end of a call: the answer, whatever is said about a failure, and the tree. -/
def shown {α : Type} (value : α → Option Bool) : EStateM.Result Fault Host α → TreeAnswer × Tree
  | .ok a h' => (.ok (value a), h'.tree)
  | .error e h' => (.error e.sort, h'.tree)

/-- What is seen of calls that are made one after the other, whether they fail or not. -/
def transcript (fs : CgroupFilesystem) : List TreeCall → Host → List (TreeAnswer × Tree)
  | [], _ => []
  | c :: cs, h => shown id (fs.perform c h) :: transcript fs cs ((fs.perform c).hostAfter h)

/-- What calls leave alone, and their answers depend on. -/
def surroundings (h : Host) : Int × List (String × Int) × Programs := (h.euid, h.passwd, h.programs)

instance : Steady (SameBy surroundings) := steady_sameBy (by
  rintro h h' ⟨_, _, _, _, _, _, rfl, _⟩
  rfl)

theorem surroundings_perform (fs : CgroupFilesystem) (c : TreeCall) :
    Leads (SameBy surroundings) (fs.perform c) := by
  cases c with
  | ensureDirectory path =>
      exact Leads.bind (steady_ensureDirectory fs fun _ => rfl) fun _ => leads_pure _
  | changeOwner path owner =>
      exact Leads.bind (steady_changeOwner fs fun _ => rfl) fun _ => leads_pure _

/-- A value may be read off a call before the call is shown, or after. -/
theorem shown_bind_pure {α β : Type} (act : Run α) (f : α → β) (value : β → Option Bool) (h : Host) :
    shown value ((act >>= fun a => pure (f a)) h) = shown (fun a => value (f a)) (act h) := by
  rw [bind_apply]
  cases act h <;> rfl

theorem tree_hostAfter (act : Run (Option Bool)) (h : Host) :
    (act.hostAfter h).tree = (shown id (act h)).2 := by
  unfold hostAfter
  cases act h <;> rfl

/-! ### By direct calls -/

section
variable {path : Path} {owner : String} {h : Host}

theorem isDirectory_of_undenied (hundenied : h.tree.Undenied) (path : Path) :
    isDirectory path h = .ok (decide (h.tree.typeAt path = some .directory)) h := by
  refine isDirectory_of_not_hidden ?_
  rintro ⟨n, hthere, hhidden⟩
  rw [hundenied hthere] at hhidden
  cases hhidden

theorem shown_directEnsureDirectory (hroot : h.euid = 0) (hundenied : h.tree.Undenied) :
    shown some (directEnsureDirectory path h) =
      (directAnswer h.passwd (.ensureDirectory path) h.tree,
        (TreeCall.ensureDirectory path).effect h.passwd h.tree) := by
  have hfound := isDirectory_of_undenied hundenied path
  simp only [directAnswer, TreeCall.effect, hundenied.mkdir_eq]
  cases hthere : h.tree.typeAt path with
  | none =>
      rw [hthere] at hfound
      rw [directEnsureDirectory_of_file hfound, mkdir, hundenied.mkdir_eq, hthere, hroot]
      rcases h.tree.typeAt path.parent with _ | _ | _ <;> rfl
  | some type =>
      rw [hthere] at hfound
      cases type with
      | directory =>
          unfold directEnsureDirectory
          rw [bind_apply_of_ok hfound]
          rfl
      | file =>
          rw [directEnsureDirectory_of_file hfound, mkdir, hundenied.mkdir_eq, hthere]
          rfl

theorem shown_directChangeOwner (hundenied : h.tree.Undenied) :
    shown (fun _ => none) (directChangeOwner path owner h) =
      (directAnswer h.passwd (.changeOwner path owner) h.tree,
        (TreeCall.changeOwner path owner).effect h.passwd h.tree) := by
  simp only [directAnswer, TreeCall.effect, Tree.typeAt]
  cases hnumber : h.passwd.lookup owner with
  | none =>
      rw [directChangeOwner_of_numberless hnumber]
      rfl
  | some uid =>
      cases hthere : h.tree.get? path with
      | none =>
          have hrefused : Run.chown path path uid h =
              .error (.system (.about SystemError.noEntry path.toString)) h := by
            unfold Run.chown Tree.chown
            rw [hthere]
          dsimp only [Option.map]
          rw [Tree.chownWithin_of_absent hthere, directChangeOwner,
            bind_apply_of_ok (requireUser_of_some hnumber),
            mapFault_of_error (bind_apply_of_error hrefused _)]
          rfl
      | some n =>
          have hall : ∀ q ∈ h.tree.reach path, h.tree.Givable q := fun q hq =>
            hundenied.givable_of_isSome (Tree.isSome_of_mem_reach hthere hq)
          have hends := giveEnds_directChangeOwner path hnumber
          dsimp only [Option.map]
          rw [Tree.chownWithin_of_there hundenied hthere]
          cases hended : directChangeOwner path owner h with
          | error e h' =>
              rw [hended] at hends
              cases hends with
              | refused hnot hgiven htree => exact absurd hall hnot
          | ok u h' =>
              rw [hended] at hends
              cases hends with
              | given hall htree =>
                  rw [shown, htree]
                  rfl

/-- What is seen of a direct call, on behalf of root. -/
theorem shown_direct (c : TreeCall) (hroot : h.euid = 0) (hundenied : h.tree.Undenied) :
    shown id (CgroupFilesystem.direct.perform c h) =
      (directAnswer h.passwd c h.tree, c.effect h.passwd h.tree) := by
  cases c with
  | ensureDirectory path =>
      rw [perform, shown_bind_pure]
      exact shown_directEnsureDirectory (h := h.noted (.requested (.ensureDirectory path)))
        hroot hundenied
  | changeOwner path owner =>
      rw [perform, shown_bind_pure]
      exact shown_directChangeOwner (h := h.noted (.requested (.changeOwner path owner))) hundenied

/-! ### Through the elevating program -/

variable {executable call : String} {args : List String} {hostCall : Tree → Except SystemError Tree}

theorem validateElevation_of_performs (hproves : h.programs.Performs [executable, "-v"] .ok) :
    ∃ h', validateElevation executable h = .ok () h' ∧ h'.tree = h.tree ∧
      h'.programs = h.programs := by
  unfold validateElevation
  rw [bind_apply_of_ok (show (get : Run Host) h = .ok h h from rfl)]
  by_cases hvalidated : h.elevationValidated = true
  · rw [if_pos hvalidated]
    exact ⟨h, rfl, rfl, rfl⟩
  · obtain ⟨out, hended, hstatus⟩ := hproves h.journal.invocations none h.tree
    have hsucceeded : out.succeeded = true := by rw [ProgramOutput.succeeded, hstatus]; rfl
    rw [if_neg hvalidated, bind_apply_of_ok (mapFault_eq_ok_iff.2 (startProgram_of_ok hended)),
      if_pos hsucceeded]
    exact ⟨_, rfl, rfl, rfl⟩

/-- What is seen of a call through the elevating program, of which the errors of the host are no
part. -/
theorem shown_runElevated (limit : Number) (path : Path) (value : Unit → Option Bool)
    (hproves : h.programs.Performs [executable, "-v"] .ok)
    (hperforms : h.programs.Performs (executable :: "-n" :: call :: args) hostCall) :
    shown value (runElevated executable limit call args path h) =
      match hostCall h.tree with
      | .ok t => (.ok (value ()), t)
      | .error _ => (.error (.refused .permissionDenied), h.tree) := by
  obtain ⟨h₁, hvalidated, htree, hprograms⟩ := validateElevation_of_performs hproves
  rw [← hprograms] at hperforms
  obtain ⟨out, hended⟩ := hperforms h₁.journal.invocations (some limit) h₁.tree
  rw [← htree, runElevated, bind_apply_of_ok hvalidated]
  cases hcall : hostCall h₁.tree with
  | ok t =>
      rw [hcall] at hended
      have hsucceeded : out.succeeded = true := by rw [ProgramOutput.succeeded, hended.2]; rfl
      rw [bind_apply_of_ok (mapFault_eq_ok_iff.2 (command_of_ok [] hended.1)), if_pos hsucceeded]
      rfl
  | error e =>
      rw [hcall] at hended
      have hfailed : ¬ out.succeeded = true := by
        rw [ProgramOutput.succeeded, beq_iff_eq]
        exact hended.2
      rw [bind_apply_of_ok (mapFault_eq_ok_iff.2 (command_of_ok [] hended.1)), if_neg hfailed]
      rfl

/-- The elevating program is asked where there is no directory at the path, but one at its parent. -/
theorem shown_sudoEnsureDirectory_eq_ite (limit : Number) (hundenied : h.tree.Undenied) :
    shown some (sudoEnsureDirectory executable limit path h) =
      if h.tree.typeAt path = some .directory then (.ok (some false), h.tree)
      else if h.tree.typeAt path.parent = some .directory then
        shown (fun _ => some true)
          (runElevated executable limit "mkdir" [path.toString] path h)
      else (.error (.refused .configurationError), h.tree) := by
  unfold sudoEnsureDirectory
  rw [bind_apply_of_ok (isDirectory_of_undenied hundenied path)]
  by_cases hthere : h.tree.typeAt path = some .directory
  · rw [if_pos (decide_eq_true hthere), if_pos hthere]
    rfl
  · rw [if_neg (by simpa using hthere), if_neg hthere,
      bind_apply_of_ok (isDirectory_of_undenied hundenied path.parent)]
    by_cases habove : h.tree.typeAt path.parent = some .directory
    · rw [if_pos (decide_eq_true habove), if_pos habove]
      exact shown_bind_pure _ _ _ h
    · rw [if_neg (by simpa using habove), if_neg habove]
      rfl

theorem shown_sudoEnsureDirectory (limit : Number) (hundenied : h.tree.Undenied)
    (helevates : h.programs.Elevates executable h.passwd) :
    shown some (sudoEnsureDirectory executable limit path h) =
      (elevatedAnswer h.passwd (.ensureDirectory path) h.tree,
        (TreeCall.ensureDirectory path).effect h.passwd h.tree) := by
  rw [shown_sudoEnsureDirectory_eq_ite limit hundenied,
    shown_runElevated limit path _ helevates.proves (helevates.makes path)]
  simp only [elevatedAnswer, TreeCall.effect, hundenied.mkdir_eq]
  rcases h.tree.typeAt path with _ | _ | _ <;> rcases h.tree.typeAt path.parent with _ | _ | _ <;>
    rfl

theorem shown_sudoChangeOwner (limit : Number) (hundenied : h.tree.Undenied)
    (helevates : h.programs.Elevates executable h.passwd) :
    shown (fun _ => none) (sudoChangeOwner executable limit path owner h) =
      (elevatedAnswer h.passwd (.changeOwner path owner) h.tree,
        (TreeCall.changeOwner path owner).effect h.passwd h.tree) := by
  simp only [elevatedAnswer, TreeCall.effect, Tree.typeAt]
  unfold sudoChangeOwner
  cases hnumber : h.passwd.lookup owner with
  | none =>
      rw [bind_apply_of_error (requireUser_of_none hnumber)]
      rfl
  | some uid =>
      rw [bind_apply_of_ok (requireUser_of_some hnumber),
        shown_runElevated limit path _ helevates.proves (helevates.gives path owner uid hnumber)]
      dsimp only
      cases hthere : h.tree.get? path with
      | none =>
          rw [Tree.chownWithin_of_absent hthere]
          rfl
      | some n =>
          rw [Tree.chownWithin_of_there hundenied hthere]
          rfl

/-- What is seen of a call through the elevating program. -/
theorem shown_viaSudo (limit : Number) (c : TreeCall) (hundenied : h.tree.Undenied)
    (helevates : h.programs.Elevates executable h.passwd) :
    shown id ((CgroupFilesystem.viaSudo executable limit).perform c h) =
      (elevatedAnswer h.passwd c h.tree, c.effect h.passwd h.tree) := by
  cases c with
  | ensureDirectory path =>
      rw [perform, shown_bind_pure]
      exact shown_sudoEnsureDirectory (h := h.noted (.requested (.ensureDirectory path))) limit
        hundenied helevates
  | changeOwner path owner =>
      rw [perform, shown_bind_pure]
      exact shown_sudoChangeOwner (h := h.noted (.requested (.changeOwner path owner))) limit
        hundenied helevates

end

/-! ## Call after call -/

/-- Where each call shows its answer and its effect, so does the transcript of several. -/
theorem transcript_eq_expected (fs : CgroupFilesystem)
    (answer : List (String × Int) → TreeCall → Tree → TreeAnswer) (holds : Host → Prop)
    (hkeeps : ∀ h h', SameBy surroundings h h' → holds h → holds h')
    (hshown : ∀ c h, holds h → h.tree.Undenied →
      shown id (fs.perform c h) = (answer h.passwd c h.tree, c.effect h.passwd h.tree)) :
    ∀ (cs : List TreeCall) (h : Host), holds h → h.tree.Undenied →
      fs.transcript cs h = expected (answer h.passwd) h.passwd cs h.tree := by
  intro cs
  induction cs with
  | nil =>
      intro h _ _
      rfl
  | cons c cs ih =>
      intro h hholds hundenied
      have hone := hshown c h hholds hundenied
      have hsame := surroundings_perform fs c h
      have htree : ((fs.perform c).hostAfter h).tree = c.effect h.passwd h.tree := by
        rw [tree_hostAfter, hone]
      have hpasswd : ((fs.perform c).hostAfter h).passwd = h.passwd :=
        congrArg (fun around => around.2.1) hsame
      have hrest := ih ((fs.perform c).hostAfter h) (hkeeps _ _ hsame hholds)
        (htree ▸ TreeCall.undenied_effect h.passwd c hundenied)
      rw [transcript, expected, hone, hrest, hpasswd, htree]

/-- **The two backends.**  One host is worked on by direct calls as root, the other through a program
that elevates; both have the same users, and the same file tree, of which no entry denies anything.
Over any calls the trees stay the same, call by call, and the answers are the same exactly if none of
the calls, when its turn comes, is to make a directory where there is a file, or below a file, or to
give away a path at which there is nothing. -/
theorem backends_agree_iff {executable : String} (limit : Number) {h h' : Host}
    (hroot : h.euid = 0) (hundenied : h.tree.Undenied)
    (helevates : h'.programs.Elevates executable h'.passwd)
    (htree : h'.tree = h.tree) (hpasswd : h'.passwd = h.passwd) (cs : List TreeCall) :
    let direct := CgroupFilesystem.direct.transcript cs h
    let elevated := (CgroupFilesystem.viaSudo executable limit).transcript cs h'
    direct.map Prod.snd = elevated.map Prod.snd ∧
    (direct = elevated ↔ ¬ TreeCall.OddAmong h.passwd cs h.tree) := by
  intro direct elevated
  have hdirect : direct = expected (directAnswer h.passwd) h.passwd cs h.tree :=
    transcript_eq_expected .direct directAnswer (fun h => h.euid = 0)
      (fun h h' hsame hroot => (congrArg Prod.fst hsame).trans hroot)
      (fun c h hroot hundenied => shown_direct c hroot hundenied) cs h hroot hundenied
  have helevated : elevated = expected (elevatedAnswer h.passwd) h.passwd cs h.tree := by
    rw [← htree, ← hpasswd]
    exact transcript_eq_expected (.viaSudo executable limit) elevatedAnswer
      (fun h => h.programs.Elevates executable h.passwd)
      (fun h h' hsame helevates => by
        rw [show h'.passwd = h.passwd from congrArg (fun around => around.2.1) hsame,
          show h'.programs = h.programs from congrArg (fun around => around.2.2) hsame]
        exact helevates)
      (fun c h helevates hundenied => shown_viaSudo limit c hundenied helevates) cs h' helevates
      (htree ▸ hundenied)
  rw [hdirect, helevated]
  exact ⟨map_snd_expected h.passwd _ _ cs h.tree, expected_eq_iff h.passwd cs h.tree⟩

/-- The group directory of the runner is made where the controller is mounted, given away, and found
again, by root as by anyone whom the program elevates. -/
theorem backends_agree_iff_blkio :
    let passwd : List (String × Int) := [("root", 0), ("runner", 1000)]
    let tree : Tree := (({} : Tree).put (.ofString "/cg") {}).put (.ofString "/cg/blkio") {}
    let h : Host := { tree, passwd }
    let h' : Host := { tree, passwd, euid := 1000, programs := Programs.elevating passwd }
    let calls : List TreeCall := [.ensureDirectory (.ofString "/cg/blkio/sp"),
      .changeOwner (.ofString "/cg/blkio/sp") "runner", .ensureDirectory (.ofString "/cg/blkio/sp"),
      .changeOwner (.ofString "/cg/pids/sp") "nobody", .ensureDirectory (.ofString "/cg/pids/sp")]
    CgroupFilesystem.direct.transcript calls h =
      (CgroupFilesystem.viaSudo "sudo" 60).transcript calls h' := by
  intro passwd tree h h' calls
  have hundenied : h.tree.Undenied := (Tree.undenied_empty.put rfl _).put rfl _
  have helevates : h'.programs.Elevates "sudo" h'.passwd := Programs.elevates_elevating _ _
  exact ((backends_agree_iff 60 rfl hundenied helevates rfl rfl calls).2).2 (by decide +kernel)

/-- Below a file, the one answers that it is no directory, and the other that the controller is not
mounted. -/
theorem not_always_backends_agree :
    ¬ ∀ (executable : String) (limit : Number) (h h' : Host), h.euid = 0 → h.tree.Undenied →
      h'.programs.Elevates executable h'.passwd → h'.tree = h.tree → h'.passwd = h.passwd →
      ∀ cs, CgroupFilesystem.direct.transcript cs h =
        (CgroupFilesystem.viaSudo executable limit).transcript cs h' := by
  intro hagree
  let passwd : List (String × Int) := [("root", 0), ("runner", 1000)]
  let tree : Tree :=
    (({} : Tree).put (.ofString "/cg") {}).put (.ofString "/cg/blkio") { type := .file }
  let h : Host := { tree, passwd }
  let h' : Host := { tree, passwd, euid := 1000, programs := Programs.elevating passwd }
  have hsame := hagree "sudo" 60 h h' rfl ((Tree.undenied_empty.put rfl _).put rfl _)
    (Programs.elevates_elevating "sudo" passwd) rfl rfl
    [.ensureDirectory (.ofString "/cg/blkio/sp")]
  exact absurd (congrArg (List.map Prod.fst) hsame) (by decide +kernel)

end CgroupFilesystem

end Provisioning
