/-
# `Provisioning.Proofs.Cgroup.Elevated` — what the elevating program is started for

The elevating program is started for two things: to have the operator prove who
they are, and then, told to ask nothing, to make a call for them.  What one call
of the filesystem starts, by whether the operator has proved it before:

    not needed        before      starts                       proved after
    yes               no, yes     nothing                      as before
    no                no          sudo -v ✗                    no
    no                no          sudo -v, sudo -n …           yes
    no                yes         sudo -n …                    yes

A call is not needed if the directory is there, and it is given up if the
controller is not mounted or the owner is unknown.  How a started call ends
makes no difference to those after it.

**Stated here.**  Over any calls, whatever the programs of the host do: nothing
is elevated before the operator has proved who they are, who is not asked again
after that; and every call elevates once at most, and starts nothing exactly if
it has nothing to elevate (`elevation_is_orderly`).
-/
import Provisioning.Proofs.Cgroup.Backends
import Provisioning.Proofs.Host.Rounds

namespace Provisioning

open Run

/-- A program that was started, with its exit status if it ran to its end. -/
abbrev ProgramRun := Invocation × Option Int

namespace Elevation

section
variable (executable : String)

/-- The operator is asked to prove who they are. -/
def Asks (r : ProgramRun) : Prop := r.1 = ⟨[executable, "-v"], none⟩

/-- The operator has proved it. -/
def proof : ProgramRun := (⟨[executable, "-v"], none⟩, some 0)

/-- Something is done for the operator, who is not asked. -/
def Elevates (r : ProgramRun) : Prop := r.1.args.take 2 = [executable, "-n"]

instance : DecidablePred (Elevates executable) := fun _ => inferInstanceAs (Decidable (_ = _))

/-- What may be started, one after the other: something elevated once the operator has proved who they
are, and until then only the program that asks. -/
def Orderly : Bool → List ProgramRun → Prop
  | _, [] => True
  | proved, r :: rest =>
    (if proved then Elevates executable r else Asks executable r) ∧
      Orderly (proved || r == proof executable) rest

/-- What a call starts, by whether the operator has proved who they are before it; and whether they
have after it. -/
inductive CallRuns : Bool → List ProgramRun → Bool → Prop where
  | nothing (proved : Bool) : CallRuns proved [] proved
  | denied {r : ProgramRun} (hasks : Asks executable r) (hfailed : r.2 ≠ some 0) :
      CallRuns false [r] false
  | first {r : ProgramRun} (helevates : Elevates executable r) :
      CallRuns false [proof executable, r] true
  | later {r : ProgramRun} (helevates : Elevates executable r) : CallRuns true [r] true

end

variable {executable : String} {proved proved' : Bool} {runs later : List ProgramRun}
  {r : ProgramRun}

theorem ne_proof_of_elevates (helevates : Elevates executable r) : r ≠ proof executable := by
  rintro rfl
  exact absurd helevates (by simp [Elevates, proof])

theorem Orderly.append (hruns : Orderly executable proved runs)
    (hlater : Orderly executable (proved || runs.contains (proof executable)) later) :
    Orderly executable proved (runs ++ later) := by
  induction runs generalizing proved with
  | nil => simpa using hlater
  | cons r rest ih =>
      refine ⟨hruns.1, ih hruns.2 ?_⟩
      rw [List.contains_cons, Bool.beq_comm, ← Bool.or_assoc] at hlater
      exact hlater

/-- What was started at some point, by what was started before. -/
theorem Orderly.started {before after : List ProgramRun}
    (hruns : Orderly executable proved (before ++ r :: after)) :
    if proved || before.contains (proof executable) then Elevates executable r
    else Asks executable r := by
  induction before generalizing proved with
  | nil => simpa using hruns.1
  | cons e before ih =>
      have hrest := ih hruns.2
      rw [Bool.or_assoc, Bool.beq_comm, ← List.contains_cons] at hrest
      exact hrest

/-- A call keeps to the order, and what it leaves is whether the operator has proved who they are by
then. -/
theorem CallRuns.orderly (hcall : CallRuns executable proved runs proved') :
    Orderly executable proved runs ∧ proved' = (proved || runs.contains (proof executable)) := by
  cases hcall with
  | nothing => simp [Orderly]
  | @denied r hasks hfailed =>
      have hnot : r ≠ proof executable := fun hproof => hfailed (congrArg Prod.snd hproof)
      exact ⟨⟨hasks, trivial⟩, by simp [Ne.symm hnot]⟩
  | @first r helevates =>
      refine ⟨⟨rfl, ?_, trivial⟩, by simp⟩
      simpa using helevates
  | @later r helevates => exact ⟨⟨helevates, trivial⟩, rfl⟩

/-- A call elevates once at most. -/
theorem CallRuns.elevates_once (hcall : CallRuns executable proved runs proved') :
    (runs.filter fun r => Elevates executable r).length ≤ 1 := by
  cases hcall with
  | nothing => exact Nat.zero_le 1
  | denied => exact List.length_filter_le _ _
  | later => exact List.length_filter_le _ _
  | @first r helevates =>
      have hproof : ¬ Elevates executable (proof executable) := fun hproof =>
        ne_proof_of_elevates hproof rfl
      simp [hproof, helevates]

end Elevation

open Elevation

/-! ## What a call starts -/

/-- The programs that were started, and whether the operator has proved who they are. -/
def Host.elevation (h : Host) : List ProgramRun × Bool :=
  (h.journal.programRuns, h.elevationValidated)

/-- On the way from `h` to `h'` a call was made, which started something exactly if it was needed. -/
def Host.Starts (executable : String) (needed : Prop) (h h' : Host) : Prop :=
  ∃ runs proved', CallRuns executable h.elevationValidated runs proved' ∧
    (runs = [] ↔ ¬ needed) ∧ h'.elevation = (h.journal.programRuns ++ runs, proved')

theorem Host.starts_nothing {executable : String} {needed : Prop} (hnot : ¬ needed) (h : Host) :
    h.Starts executable needed h :=
  ⟨[], h.elevationValidated, .nothing _, iff_of_true rfl hnot, by rw [List.append_nil, elevation]⟩

theorem Host.Starts.congr {executable : String} {needed needed' : Prop} {h h' h'' : Host}
    (hstarts : h.Starts executable needed h') (hiff : needed ↔ needed')
    (hsame : h''.elevation = h'.elevation) : h.Starts executable needed' h'' := by
  obtain ⟨runs, proved', hcall, hidle, hafter⟩ := hstarts
  exact ⟨runs, proved', hcall, hidle.trans (not_congr hiff), hsame.trans hafter⟩

namespace CgroupFilesystem

/-- A command is one start of a program, whatever comes of it. -/
theorem elevation_command (program : String) (args : List String) (limit : Option Number)
    (secrets : List String) (h : Host) :
    ∃ status, ((command (program :: args) limit secrets).hostAfter h).elevation =
      (h.journal.programRuns ++ [(⟨program :: args, limit⟩, status)], h.elevationValidated) := by
  cases hended : h.programs h.journal.invocations ⟨program :: args, limit⟩ h.tree with
  | mk outcome t =>
      cases outcome with
      | ok out =>
          rw [hostAfter_of_ok (command_of_ok secrets hended)]
          exact ⟨some out.status, by simp [Host.elevation, Journal.programRuns, startLine, endLine]⟩
      | error e =>
          rw [hostAfter_of_error (command_of_error secrets hended)]
          exact ⟨none, by simp [Host.elevation, Journal.programRuns, startLine]⟩

/-- How the operator proves who they are. -/
inductive ValidationEnds (executable : String) (h : Host) :
    EStateM.Result Fault Host Unit → Prop where
  | before (hproved : h.elevationValidated = true) : ValidationEnds executable h (.ok () h)
  | proved {h' : Host} (hnot : h.elevationValidated = false)
      (hafter : h'.elevation = (h.journal.programRuns ++ [proof executable], true)) :
      ValidationEnds executable h (.ok () h')
  | denied {e : Fault} {h' : Host} {r : ProgramRun} (hnot : h.elevationValidated = false)
      (hasks : Asks executable r) (hfailed : r.2 ≠ some 0)
      (hafter : h'.elevation = (h.journal.programRuns ++ [r], false)) :
      ValidationEnds executable h (.error e h')

theorem validationEnds_validateElevation (executable : String) (h : Host) :
    ValidationEnds executable h (validateElevation executable h) := by
  unfold validateElevation
  rw [bind_apply_of_ok (show (get : Run Host) h = .ok h h from rfl)]
  cases hproved : h.elevationValidated with
  | true => exact .before hproved
  | false =>
      rw [if_neg Bool.false_ne_true]
      cases hended : h.programs h.journal.invocations ⟨[executable, "-v"], none⟩ h.tree with
      | mk outcome t =>
          cases outcome with
          | ok out =>
              rw [bind_apply_of_ok (mapFault_eq_ok_iff.2 (startProgram_of_ok hended))]
              by_cases hstatus : out.status = 0
              · rw [if_pos (by simp [ProgramOutput.succeeded, hstatus])]
                refine .proved hproved ?_
                simp [Host.elevation, Journal.programRuns, proof, hstatus]
              · rw [if_neg (by simp [ProgramOutput.succeeded, hstatus])]
                refine .denied (r := (⟨[executable, "-v"], none⟩, some out.status)) hproved rfl
                  (fun hzero => hstatus (Option.some.inj hzero)) ?_
                simp [Host.elevation, Journal.programRuns, hproved]
          | error e =>
              rw [bind_apply_of_error (mapFault_of_error (startProgram_of_error hended) _)]
              refine .denied (r := (⟨[executable, "-v"], none⟩, none)) hproved rfl
                (Option.some_ne_none 0).symm ?_
              simp [Host.elevation, Journal.programRuns, hproved]

/-- A call is made once the operator has proved who they are, and is not made otherwise. -/
theorem starts_runElevated (executable : String) (limit : Number) (call : String)
    (args : List String) (path : Path) (h : Host) :
    h.Starts executable True ((runElevated executable limit call args path).hostAfter h) := by
  have hends := validationEnds_validateElevation executable h
  cases hvalidate : validateElevation executable h with
  | error e h₁ =>
      rw [hvalidate] at hends
      unfold runElevated
      rw [hostAfter_of_error (bind_apply_of_error hvalidate _)]
      cases hends with
      | @denied _ _ r hnot hasks hfailed hafter =>
          exact ⟨[r], false, hnot ▸ .denied hasks hfailed, by simp, hafter⟩
  | ok u h₁ =>
      rw [hvalidate] at hends
      have hran : ∃ r, Elevates executable r ∧
          ((runElevated executable limit call args path).hostAfter h).elevation =
            (h₁.journal.programRuns ++ [r], h₁.elevationValidated) := by
        obtain ⟨status, hran⟩ :=
          elevation_command executable ("-n" :: call :: args) (some limit) [] h₁
        refine ⟨(⟨executable :: "-n" :: call :: args, some limit⟩, status), rfl, ?_⟩
        unfold runElevated
        rw [hostAfter_bind_of_ok hvalidate]
        refine (view_hostAfter_bind (fun _ => show Leads (SameBy Host.elevation) _ from
          Leads.ite (leads_pure _) (leads_refuse _ _ _)) _ h₁).trans ?_
        rw [hostAfter_mapFault]
        exact hran
      obtain ⟨r, helevates, hafter⟩ := hran
      cases hends with
      | before hproved =>
          rw [hproved] at hafter
          exact ⟨[r], true, hproved ▸ .later helevates, by simp, hafter⟩
      | proved hnot hproof =>
          obtain ⟨hruns, hproved⟩ := Prod.mk.inj hproof
          rw [hruns, hproved, List.append_assoc] at hafter
          exact ⟨[proof executable, r], true, hnot ▸ .first helevates, by simp, hafter⟩

end CgroupFilesystem

/-! ## Which calls start anything -/

/-- The call has something to do that the operator has no rights for: a directory is to be made where
there is none, and the controller is mounted; or the owner that is to be given something is known. -/
def TreeCall.NeedsElevation (h : Host) : TreeCall → Prop
  | .ensureDirectory path =>
    (¬ h.tree.Hidden path ∧ h.tree.typeAt path ≠ some .directory) ∧
      ¬ h.tree.Hidden path.parent ∧ h.tree.typeAt path.parent = some .directory
  | .changeOwner _ owner => h.passwd.lookup owner ≠ none

namespace CgroupFilesystem

/-- The directory is made for the operator only where none is seen, below one that is seen. -/
theorem starts_sudoEnsureDirectory (executable : String) (limit : Number) (path : Path) (h : Host) :
    h.Starts executable ((TreeCall.ensureDirectory path).NeedsElevation h)
      ((sudoEnsureDirectory executable limit path).hostAfter h) := by
  unfold sudoEnsureDirectory
  by_cases hhidden : h.tree.Hidden path
  · rw [hostAfter_of_error (bind_apply_of_error (isDirectory_of_hidden hhidden) _)]
    exact Host.starts_nothing (fun hneeds => hneeds.1.1 hhidden) h
  rw [hostAfter_bind_of_ok (isDirectory_of_not_hidden hhidden)]
  by_cases hthere : h.tree.typeAt path = some .directory
  · rw [if_pos (decide_eq_true hthere)]
    exact Host.starts_nothing (fun hneeds => hneeds.1.2 hthere) h
  rw [if_neg (by simpa using hthere)]
  by_cases habove : h.tree.Hidden path.parent
  · rw [hostAfter_of_error (bind_apply_of_error (isDirectory_of_hidden habove) _)]
    exact Host.starts_nothing (fun hneeds => hneeds.2.1 habove) h
  rw [hostAfter_bind_of_ok (isDirectory_of_not_hidden habove)]
  by_cases hmounted : h.tree.typeAt path.parent = some .directory
  · rw [if_pos (decide_eq_true hmounted)]
    exact (starts_runElevated executable limit "mkdir" [path.toString] path h).congr
      (iff_of_true trivial ⟨⟨hhidden, hthere⟩, habove, hmounted⟩)
      (view_hostAfter_bind (fun _ => leads_pure _) _ h)
  · rw [if_neg (by simpa using hmounted)]
    exact Host.starts_nothing (fun hneeds => hmounted hneeds.2.2) h

/-- A path is given away for the operator only to an owner that is known. -/
theorem starts_sudoChangeOwner (executable : String) (limit : Number) (path : Path)
    (owner : String) (h : Host) :
    h.Starts executable ((TreeCall.changeOwner path owner).NeedsElevation h)
      ((sudoChangeOwner executable limit path owner).hostAfter h) := by
  unfold sudoChangeOwner
  cases hnumber : h.passwd.lookup owner with
  | none =>
      rw [hostAfter_of_error (bind_apply_of_error (requireUser_of_none hnumber) _)]
      exact Host.starts_nothing (not_not_intro hnumber) h
  | some uid =>
      have hneeds : (TreeCall.changeOwner path owner).NeedsElevation h := by
        simp [TreeCall.NeedsElevation, hnumber]
      rw [hostAfter_bind_of_ok (requireUser_of_some hnumber)]
      exact (starts_runElevated executable limit "chown" ["-R", owner, path.toString] path h).congr
        (iff_of_true trivial hneeds) rfl

theorem starts_perform (executable : String) (limit : Number) (c : TreeCall) (h : Host) :
    h.Starts executable (c.NeedsElevation h)
      ((perform (.viaSudo executable limit) c).hostAfter h) := by
  have hnoted (change : Change) {needed : Prop} {h' : Host}
      (hstarts : (h.noted (.requested change)).Starts executable needed h') :
      h.Starts executable needed h' := by
    have hruns : (h.noted (.requested change)).journal.programRuns = h.journal.programRuns := by
      simp [Host.noted, Journal.programRuns]
    rw [Host.Starts, hruns] at hstarts
    exact hstarts
  cases c with
  | ensureDirectory path =>
      exact (hnoted _ (starts_sudoEnsureDirectory executable limit path _)).congr Iff.rfl
        (view_hostAfter_bind (fun _ => leads_pure _) _ h)
  | changeOwner path owner =>
      exact (hnoted _ (starts_sudoChangeOwner executable limit path owner _)).congr Iff.rfl
        (view_hostAfter_bind (fun _ => leads_pure _) _ h)

theorem grows_perform (fs : CgroupFilesystem) (c : TreeCall) :
    Leads (Host.Grows fun _ => True) (fs.perform c) := by
  cases c with
  | ensureDirectory path =>
      exact Leads.bind (steady_ensureDirectory fs (allows_grows trivial)) fun _ => leads_pure _
  | changeOwner path owner =>
      exact Leads.bind (steady_changeOwner fs (allows_grows trivial)) fun _ => leads_pure _

/-- What is written down of programs during a round is what its call started. -/
theorem callRuns_roundOn (executable : String) (limit : Number) (c : TreeCall) (h : Host) :
    CallRuns executable h.elevationValidated
        (roundOn (perform (.viaSudo executable limit)) c h).own.programRuns
        (roundOn (perform (.viaSudo executable limit)) c h).after.elevationValidated ∧
      ((roundOn (perform (.viaSudo executable limit)) c h).own.programRuns = [] ↔
        ¬ c.NeedsElevation h) := by
  obtain ⟨runs, proved', hcall, hidle, hafter⟩ := starts_perform executable limit c h
  obtain ⟨hruns, hproved⟩ := Prod.mk.inj hafter
  have hown : (roundOn (perform (.viaSudo executable limit)) c h).own.programRuns = runs :=
    filterMap_own _ (grows_perform _ c) hruns
  rw [hown, after_roundOn, hproved]
  exact ⟨hcall, hidle⟩

/-- What some calls start, in order. -/
def startedBy (executable : String) (limit : Number) (cs : List TreeCall) (h : Host) :
    List ProgramRun :=
  (rounds (perform (.viaSudo executable limit)) cs h).flatMap fun r => r.own.programRuns

theorem orderly_startedBy (executable : String) (limit : Number) (cs : List TreeCall) (h : Host) :
    Orderly executable h.elevationValidated (startedBy executable limit cs h) := by
  induction cs generalizing h with
  | nil => trivial
  | cons c cs ih =>
      obtain ⟨horderly, hproved⟩ := (callRuns_roundOn executable limit c h).1.orderly
      exact horderly.append (hproved ▸ ih (roundOn (perform (.viaSudo executable limit)) c h).after)

/-- The host, of whose operator the filesystem knows nothing yet. -/
def unproved (h : Host) : Host := { h with elevationValidated := false }

/-- **Asked once, and nothing elevated before.**  Of the programs that any calls start, each either is
elevated, and the operator has proved who they are before, or asks for the proof, which was not given
yet.  Every call elevates once at most, and starts nothing exactly if it has nothing to elevate. -/
theorem elevation_is_orderly (executable : String) (limit : Number) (cs : List TreeCall) (h : Host) :
    (hostAfterAll (perform (.viaSudo executable limit)) cs (unproved h)).journal.programRuns =
        h.journal.programRuns ++ startedBy executable limit cs (unproved h) ∧
      (∀ before r after, startedBy executable limit cs (unproved h) = before ++ r :: after →
        Elevates executable r ∧ proof executable ∈ before ∨
          Asks executable r ∧ proof executable ∉ before) ∧
      ∀ r ∈ rounds (perform (.viaSudo executable limit)) cs (unproved h),
        (r.own.programRuns.filter fun p => Elevates executable p).length ≤ 1 ∧
          (r.own.programRuns = [] ↔ ¬ r.call.NeedsElevation r.before) := by
  refine ⟨?_, fun before r after hstarted => ?_, fun r hr => ?_⟩
  · exact filterMap_hostAfterAll _ (grows_perform _) cs (unproved h)
  · have horderly := orderly_startedBy executable limit cs (unproved h)
    rw [hstarted] at horderly
    have hkind := horderly.started
    by_cases hproved : proof executable ∈ before
    · rw [if_pos (by simpa [unproved] using hproved)] at hkind
      exact .inl ⟨hkind, hproved⟩
    · rw [if_neg (by simpa [unproved] using hproved)] at hkind
      exact .inr ⟨hkind, hproved⟩
  · obtain ⟨hcall, hidle⟩ := callRuns_roundOn executable limit r.call r.before
    rw [(of_mem_rounds hr).2]
    exact ⟨hcall.elevates_once, hidle⟩

/-- A password that is wrong at first, an unknown owner, and a directory that is there. -/
example :
    (startedBy "sudo" 60
      [.ensureDirectory (.ofString "/cg/sp"), .ensureDirectory (.ofString "/cg/sp"),
        .changeOwner (.ofString "/cg") "nobody", .ensureDirectory (.ofString "/cg"),
        .changeOwner (.ofString "/cg") "runner"]
      { tree := ({} : Tree).put (.ofString "/cg") {}
        passwd := [("runner", 1000)]
        programs := fun started _ t => (.ok { status := if started = [] then 1 else 0 }, t)
      }).map (fun r => (r.1.args, r.2)) =
      [(["sudo", "-v"], some 1), (["sudo", "-v"], some 0),
        (["sudo", "-n", "mkdir", "/cg/sp"], some 0),
        (["sudo", "-n", "chown", "-R", "runner", "/cg"], some 0)] := by decide +kernel

end CgroupFilesystem

end Provisioning
