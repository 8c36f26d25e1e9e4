/-
# `Provisioning.Proofs.Cgroup.Direct` — making and owning directories by direct calls

A directory is made and then given away, one controller after the other, and
either may fail.  Two failures belong to the refusals of the request: nothing
at the path and nothing at its parent (`Unmounted`), and an owner without a
number.  All others are failed changes, or errors of the system.

    EnsureEnds     making one directory
    OneEnds        making one directory and giving it away

**Stated here.**  How each of the two ends, and what the loop over the
directories leaves behind when it ends in a refusal of the request: all that
came before it.
-/
import Provisioning.Proofs.Cgroup.Group
import Provisioning.Proofs.Host.Seen
import Provisioning.Proofs.Validation

namespace Provisioning

open Run

namespace Tree

/-- Nothing is at a path, and nothing at its parent. -/
def Unmounted (t : Tree) (path : Path) : Prop := t.get? path = none ∧ t.get? path.parent = none

/-- Nothing is at a path, and a directory can be made there. -/
def Makeable (t : Tree) (path : Path) : Prop :=
  t.get? path = none ∧
    ∃ parent, t.get? path.parent = some parent ∧ parent.type = .directory ∧
      parent.denies.mkdir = false

theorem Makeable.not_unmounted {t : Tree} {path : Path} (hmakeable : t.Makeable path) :
    ¬ t.Unmounted path := by
  obtain ⟨-, parent, hparent, -⟩ := hmakeable
  intro hunmounted
  rw [hunmounted.2] at hparent
  exact nomatch hparent

section
variable {t : Tree} {path : Path} (uid : Int)

theorem mkdir_of_makeable (hmakeable : t.Makeable path) :
    t.mkdir uid path = .ok (t.put path { uid }) := by
  obtain ⟨habsent, parent, hparent, htype, hallowed⟩ := hmakeable
  simp [mkdir, habsent, hparent, htype, hallowed]

theorem mkdir_of_unmounted (hunmounted : t.Unmounted path) :
    t.mkdir uid path = .error (.about SystemError.noEntry path.toString) := by
  simp [mkdir, hunmounted.1, hunmounted.2]

theorem mkdir_of_there {n : Node} (hthere : t.get? path = some n) :
    t.mkdir uid path = .error (.about SystemError.alreadyExists path.toString) := by
  simp [mkdir, hthere]

/-- Where nothing is, and a directory can neither be made nor lacks its parent, the parent is in the
way. -/
theorem mkdir_of_refusing (habsent : t.get? path = none) (hmounted : ¬ t.Unmounted path)
    (hmakeable : ¬ t.Makeable path) :
    t.mkdir uid path = .error (.about SystemError.notDirectory path.toString) ∨
      t.mkdir uid path = .error (.about SystemError.accessDenied path.toString) := by
  cases hparent : t.get? path.parent with
  | none => exact absurd ⟨habsent, hparent⟩ hmounted
  | some parent =>
      cases htype : parent.type with
      | file => exact .inl (by simp [mkdir, habsent, hparent, htype])
      | directory =>
          cases hdenied : parent.denies.mkdir with
          | true => exact .inr (by simp [mkdir, habsent, hparent, htype, hdenied])
          | false => exact absurd ⟨habsent, parent, hparent, htype, hdenied⟩ hmakeable

end

end Tree

/-! ## Failures that are no refusal of the request -/

namespace Run

variable {α β : Type}

/-- The step fails, if at all, with a failure that is no refusal of the request. -/
abbrev FailsLate (act : Run α) : Prop := Raises (fun e => e.isValidation = false) act

theorem failsLate_chown (start p : Path) (uid : Int) : FailsLate (chown start p uid) := by
  intro h e h' herror
  unfold chown at herror
  split at herror
  · exact nomatch herror
  · cases herror
    rfl

end Run

/-! ## Making a directory -/

namespace CgroupFilesystem

/-- How making a directory by a direct call ends, when it begins on the host `h`. -/
inductive EnsureEnds (path : Path) (h : Host) : EStateM.Result Fault Host Bool → Prop where
  /-- Something is there. -/
  | there (hthere : h.tree.get? path ≠ none) : EnsureEnds path h (.ok false h)
  /-- The directory was made. -/
  | made (hmakeable : h.tree.Makeable path) :
      EnsureEnds path h (.ok true { h with tree := h.tree.put path { uid := h.euid } })
  /-- The controller is not mounted. -/
  | unmounted (hunmounted : h.tree.Unmounted path) : EnsureEnds path h (.error (notMounted path) h)
  /-- The directory may not be looked at, or not be made. -/
  | refused {e : Fault} (hlate : e.isValidation = false) (hmounted : ¬ h.tree.Unmounted path)
      (hmakeable : ¬ h.tree.Makeable path) : EnsureEnds path h (.error e h)

section
variable {path : Path} {h : Host} {n : Node}

/-- What is made of the answer when a directory was to be made. -/
def ofMkdir (path : Path) : EStateM.Result Fault Host Unit → EStateM.Result Fault Host Bool
  | .ok _ h' => .ok true h'
  | .error (.system e) h' =>
    if e.number? = some SystemError.alreadyExists then .ok false h'
    else if e.number? = some SystemError.noEntry then .error (notMounted path) h'
    else if e.isRefused then
      .error
        (.refuseFrom (.system e) .permissionDenied ("Permission denied creating " ++ path.toString)
          [("path", .text path.toString)]) h'
    else .error (.system e) h'
  | .error e h' => .error e h'

theorem directEnsureDirectory_of_file (hnot : isDirectory path h = .ok false h) :
    directEnsureDirectory path h = ofMkdir path (mkdir path h) := by
  unfold directEnsureDirectory
  rw [bind_apply_of_ok hnot]
  rfl

/-- What may be looked at is found, and counts as the directory, whatever it is. -/
theorem directEnsureDirectory_of_seen (hthere : h.tree.get? path = some n)
    (hseen : n.denies.stat = false) : directEnsureDirectory path h = .ok false h := by
  have hfound := isDirectory_of_there hthere hseen
  cases htype : n.type with
  | directory =>
      rw [htype] at hfound
      exact bind_apply_of_ok hfound _
  | file =>
      rw [htype] at hfound
      rw [directEnsureDirectory_of_file hfound, mkdir, Tree.mkdir_of_there _ hthere]
      rfl

theorem directEnsureDirectory_of_hidden (hthere : h.tree.get? path = some n)
    (hhidden : n.denies.stat = true) : directEnsureDirectory path h =
      .error (.system (.about SystemError.accessDenied path.toString)) h := by
  have hasked : isDirectory path h = .error _ h :=
    bind_apply_of_error (entryAt_of_hidden hthere hhidden) _
  exact bind_apply_of_error hasked _

end

theorem ensureEnds_directEnsureDirectory (path : Path) (h : Host) :
    EnsureEnds path h (directEnsureDirectory path h) := by
  cases hthere : h.tree.get? path with
  | some n =>
      have hnot : ¬ h.tree.Unmounted path ∧ ¬ h.tree.Makeable path := by
        constructor <;>
        · intro hnone
          rw [hnone.1] at hthere
          exact nomatch hthere
      cases hhidden : n.denies.stat with
      | true =>
          exact directEnsureDirectory_of_hidden hthere hhidden ▸ .refused rfl hnot.1 hnot.2
      | false =>
          exact directEnsureDirectory_of_seen hthere hhidden ▸ .there (by simp [hthere])
  | none =>
      rw [directEnsureDirectory_of_file (isDirectory_of_absent hthere), mkdir]
      by_cases hunmounted : h.tree.Unmounted path
      · rw [Tree.mkdir_of_unmounted _ hunmounted]
        exact .unmounted hunmounted
      · by_cases hmakeable : h.tree.Makeable path
        · rw [Tree.mkdir_of_makeable _ hmakeable]
          exact .made hmakeable
        · obtain hfile | hdenied := Tree.mkdir_of_refusing h.euid hthere hunmounted hmakeable
          · rw [hfile]
            exact .refused rfl hunmounted hmakeable
          · rw [hdenied]
            exact .refused rfl hunmounted hmakeable

/-! ## Giving a directory away -/

/-- Users and their numbers are the same, and so are the paths at which there is something. -/
def KeepsEntries (h h' : Host) : Prop :=
  h'.passwd = h.passwd ∧ ∀ q, (h'.tree.get? q).isSome = (h.tree.get? q).isSome

instance : IsPreorder Host KeepsEntries where
  refl _ := ⟨rfl, fun _ => rfl⟩
  trans _ _ _ hkeeps hkeeps' :=
    ⟨hkeeps'.1.trans hkeeps.1, fun q => (hkeeps'.2 q).trans (hkeeps.2 q)⟩

theorem keepsEntries_chown (start p : Path) (uid : Int) :
    Leads KeepsEntries (chown start p uid) := by
  intro h
  unfold hostAfter chown
  cases hchown : h.tree.chown p uid with
  | error e => exact refl_of _ h
  | ok t =>
      refine ⟨rfl, fun q => ?_⟩
      unfold Tree.chown at hchown
      cases hthere : h.tree.get? p with
      | none =>
          rw [hthere] at hchown
          exact nomatch hchown
      | some n =>
          rw [hthere] at hchown
          dsimp only at hchown ⊢
          split at hchown
          · exact nomatch hchown
          · cases hchown
            by_cases hq : p = q
            · subst hq
              rw [Table.get?_put_self, hthere]
              rfl
            · rw [Table.get?_put_of_ne _ hq]

theorem keepsEntries_chownEach (start : Path) (uid : Int) :
    ∀ ps : List Path, Leads KeepsEntries (chownEach start uid ps)
  | [] => leads_pure _
  | p :: ps => (keepsEntries_chown start p uid).bind fun _ => keepsEntries_chownEach start uid ps

theorem failsLate_chownEach (start : Path) (uid : Int) :
    ∀ ps : List Path, FailsLate (chownEach start uid ps)
  | [] => raises_pure _
  | p :: ps => (failsLate_chown start p uid).bind fun _ => failsLate_chownEach start uid ps

/-- How giving a directory away by direct calls ends, when it begins on the host `h`. -/
inductive ChangeEnds (owner : String) (h : Host) : EStateM.Result Fault Host Unit → Prop where
  /-- The owner has no number. -/
  | numberless (hnumber : h.passwd.lookup owner = none) :
      ChangeEnds owner h (.error (IdentityStore.unknownAccount owner) h)
  /-- Something could not be given away. -/
  | refused {e : Fault} {h' : Host} (hlate : e.isValidation = false)
      (hnumber : h.passwd.lookup owner ≠ none) : ChangeEnds owner h (.error e h')
  /-- All was given away. -/
  | changed {h' : Host} (hnumber : h.passwd.lookup owner ≠ none) (hkeeps : KeepsEntries h h') :
      ChangeEnds owner h (.ok () h')

theorem changeEnds_of_leads {owner : String} {h : Host} {act : Run Unit}
    (hnumber : h.passwd.lookup owner ≠ none) (hkeeps : Leads KeepsEntries act)
    (hlate : FailsLate act) : ChangeEnds owner h (act h) := by
  cases hact : act h with
  | ok u h' => exact .changed hnumber (hkeeps.of_ok hact)
  | error e h' => exact .refused (hlate h e h' hact) hnumber

theorem requireUser_of_some {owner : String} {uid : Int} {h : Host}
    (hnumber : h.passwd.lookup owner = some uid) : requireUser owner h = .ok uid h := by
  have hlookup : uidOf? owner h = .ok (some uid) h := by
    rw [← hnumber]
    rfl
  exact bind_apply_of_ok hlookup _

theorem requireUser_of_none {owner : String} {h : Host} (hnumber : h.passwd.lookup owner = none) :
    requireUser owner h = .error (IdentityStore.unknownAccount owner) h := by
  have hlookup : uidOf? owner h = .ok none h := by
    rw [← hnumber]
    rfl
  exact bind_apply_of_ok hlookup _

theorem directChangeOwner_of_numberless {path : Path} {owner : String} {h : Host}
    (hnumber : h.passwd.lookup owner = none) :
    directChangeOwner path owner h = .error (IdentityStore.unknownAccount owner) h :=
  bind_apply_of_error (requireUser_of_none hnumber) _

theorem changeEnds_directChangeOwner (path : Path) (owner : String) (h : Host) :
    ChangeEnds owner h (directChangeOwner path owner h) := by
  cases hnumber : h.passwd.lookup owner with
  | none => exact directChangeOwner_of_numberless hnumber ▸ .numberless hnumber
  | some uid =>
      have hsome : h.passwd.lookup owner ≠ none := by simp [hnumber]
      unfold directChangeOwner
      rw [bind_apply_of_ok (requireUser_of_some hnumber)]
      refine changeEnds_of_leads hsome (Leads.mapFault ?_ _) (Raises.mapFault ?_ ?_)
      · exact (keepsEntries_chown path path uid).bind fun _ =>
          leads_get.bind fun h => keepsEntries_chownEach path uid (h.tree.walk path)
      · refine (failsLate_chown path path uid).bind fun _ => Raises.bind ?_ fun h =>
          failsLate_chownEach path uid (h.tree.walk path)
        exact fun _ _ _ herror => nomatch herror
      · intro e e' hreplace
        split at hreplace
        · split at hreplace
          · cases hreplace
            rfl
          · exact nomatch hreplace
        · exact nomatch hreplace

end CgroupFilesystem

/-! ## Making a directory and giving it away -/

namespace CgroupProvisioner

variable {p : CgroupProvisioner}

/-- What is logged of a directory that was made, or was there. -/
def madeNotice (path : Path) (isNew : Bool) : String :=
  if isNew then "Created " ++ path.toString else path.toString ++ " already exists"

/-- The rest of a directory's turn, once it is there. -/
def giveAway (path : Path) (owner : String) : Run Unit := do
  CgroupFilesystem.directChangeOwner path owner
  Run.log .debug .cgroups ("Owner of " ++ path.toString ++ " set to '" ++ owner ++ "'")

/-- The host once a directory is there, before it is given away. -/
def onMade (path : Path) (owner : String) (isNew : Bool) (h : Host) : Host :=
  (h.logged .info .cgroups (madeNotice path isNew)).noted (.requested (.changeOwner path owner))

theorem provisionOne_of_error (hdirect : p.filesystem = .direct) {owner : String} {path : Path}
    {h h' : Host} {e : Fault}
    (hmade : CgroupFilesystem.directEnsureDirectory path
      (h.noted (.requested (.ensureDirectory path))) = .error e h') :
    p.provisionOne owner path h = .error e h' := by
  have hensure : p.filesystem.ensureDirectory path h = .error e h' := by
    rw [hdirect]
    exact hmade
  exact bind_apply_of_error hensure _

theorem provisionOne_of_ok (hdirect : p.filesystem = .direct) {owner : String} {path : Path}
    {h h' : Host} {isNew : Bool}
    (hmade : CgroupFilesystem.directEnsureDirectory path
      (h.noted (.requested (.ensureDirectory path))) = .ok isNew h') :
    p.provisionOne owner path h = giveAway path owner (onMade path owner isNew h') := by
  have hensure : p.filesystem.ensureDirectory path h = .ok isNew h' := by
    rw [hdirect]
    exact hmade
  unfold provisionOne
  rw [bind_apply_of_ok hensure, hdirect]
  cases isNew <;> rfl

/-- How making a directory and giving it away by direct calls ends, when it begins on the host `h`. -/
inductive OneEnds (owner : String) (path : Path) (h : Host) :
    EStateM.Result Fault Host Unit → Prop where
  /-- The controller is not mounted. -/
  | unmounted {h' : Host} (hunmounted : h.tree.Unmounted path) (htree : h'.tree = h.tree) :
      OneEnds owner path h (.error (CgroupFilesystem.notMounted path) h')
  /-- The directory was made, and then the owner had no number. -/
  | numberlessNew {h' : Host} (hnumber : h.passwd.lookup owner = none)
      (hmakeable : h.tree.Makeable path) (htree : h'.tree = h.tree.put path { uid := h.euid }) :
      OneEnds owner path h (.error (IdentityStore.unknownAccount owner) h')
  /-- The directory was there, and the owner has no number. -/
  | numberlessOld {h' : Host} (hnumber : h.passwd.lookup owner = none)
      (hthere : h.tree.get? path ≠ none) (htree : h'.tree = h.tree) :
      OneEnds owner path h (.error (IdentityStore.unknownAccount owner) h')
  /-- A change was refused. -/
  | refused {e : Fault} {h' : Host} (hlate : e.isValidation = false)
      (hmounted : ¬ h.tree.Unmounted path)
      (hnumber : h.tree.Makeable path → h.passwd.lookup owner ≠ none) :
      OneEnds owner path h (.error e h')
  /-- The directory is there and was given away. -/
  | done {h' : Host} (hmounted : ¬ h.tree.Unmounted path)
      (hnumber : h.passwd.lookup owner ≠ none) (hpasswd : h'.passwd = h.passwd)
      (hentries : ∀ q, (h'.tree.get? q).isSome = true ↔
        q = path ∨ (h.tree.get? q).isSome = true) : OneEnds owner path h (.ok () h')

section
variable {owner : String} {path : Path} {h h₁ : Host}

/-- A directory that was there is given away. -/
theorem oneEnds_of_there (hthere : h.tree.get? path ≠ none) (hpasswd : h₁.passwd = h.passwd)
    (htree : h₁.tree = h.tree) : OneEnds owner path h (giveAway path owner h₁) := by
  have hchange := CgroupFilesystem.changeEnds_directChangeOwner path owner h₁
  unfold giveAway
  cases hgiven : CgroupFilesystem.directChangeOwner path owner h₁ with
  | error e h₂ =>
      rw [hgiven] at hchange
      rw [bind_apply_of_error hgiven]
      cases hchange with
      | numberless hnumber => exact .numberlessOld (hpasswd ▸ hnumber) hthere htree
      | refused hlate hnumber =>
          exact .refused hlate (fun hunmounted => hthere hunmounted.1) fun _ => hpasswd ▸ hnumber
  | ok u h₂ =>
      rw [hgiven] at hchange
      rw [bind_apply_of_ok hgiven]
      cases hchange with
      | changed hnumber hkeeps =>
          refine .done (fun hunmounted => hthere hunmounted.1) (hpasswd ▸ hnumber)
            (hkeeps.1.trans hpasswd) fun q => ?_
          have hsame : (h₂.tree.get? q).isSome = (h.tree.get? q).isSome := htree ▸ hkeeps.2 q
          refine ⟨fun hq => .inr (hsame ▸ hq), ?_⟩
          rintro (rfl | hq)
          · exact hsame ▸ Option.isSome_iff_ne_none.2 hthere
          · exact hsame ▸ hq

/-- A directory that was made is given away. -/
theorem oneEnds_of_made (hmakeable : h.tree.Makeable path) (hpasswd : h₁.passwd = h.passwd)
    (htree : h₁.tree = h.tree.put path { uid := h.euid }) :
    OneEnds owner path h (giveAway path owner h₁) := by
  have hchange := CgroupFilesystem.changeEnds_directChangeOwner path owner h₁
  unfold giveAway
  cases hgiven : CgroupFilesystem.directChangeOwner path owner h₁ with
  | error e h₂ =>
      rw [hgiven] at hchange
      rw [bind_apply_of_error hgiven]
      cases hchange with
      | numberless hnumber => exact .numberlessNew (hpasswd ▸ hnumber) hmakeable htree
      | refused hlate hnumber =>
          exact .refused hlate hmakeable.not_unmounted fun _ => hpasswd ▸ hnumber
  | ok u h₂ =>
      rw [hgiven] at hchange
      rw [bind_apply_of_ok hgiven]
      cases hchange with
      | changed hnumber hkeeps =>
          refine .done hmakeable.not_unmounted (hpasswd ▸ hnumber) (hkeeps.1.trans hpasswd)
            fun q => ?_
          have hsame : (h₂.tree.get? q).isSome =
              ((h.tree.put path { uid := h.euid }).get? q).isSome := htree ▸ hkeeps.2 q
          rw [hsame]
          by_cases hq : path = q
          · subst hq
            simp
          · rw [Table.get?_put_of_ne _ hq]
            simp [Ne.symm hq]

end

theorem oneEnds_provisionOne (hdirect : p.filesystem = .direct) (owner : String) (path : Path)
    (h : Host) : OneEnds owner path h (p.provisionOne owner path h) := by
  have hensure := CgroupFilesystem.ensureEnds_directEnsureDirectory path
    (h.noted (.requested (.ensureDirectory path)))
  cases hmade : CgroupFilesystem.directEnsureDirectory path
      (h.noted (.requested (.ensureDirectory path))) with
  | error e h₁ =>
      rw [hmade] at hensure
      rw [provisionOne_of_error hdirect hmade]
      cases hensure with
      | unmounted hunmounted => exact .unmounted hunmounted rfl
      | refused hlate hmounted hmakeable =>
          exact .refused hlate hmounted fun hmakeable' => absurd hmakeable' hmakeable
  | ok isNew h₁ =>
      rw [hmade] at hensure
      rw [provisionOne_of_ok hdirect hmade]
      cases hensure with
      | there hthere => exact oneEnds_of_there hthere rfl rfl
      | made hmakeable => exact oneEnds_of_made hmakeable rfl rfl

/-! ## The directories of a list -/

/-- Provisioning a list of directories fails where one of them does, after all before it. -/
theorem provisionEach_eq_error_iff {owner : String} {e : Fault} {h' : Host} :
    ∀ {paths : List Path} {h : Host}, p.provisionEach owner paths h = .error e h' ↔
      ∃ done path rest h₁, paths = done ++ path :: rest ∧
        p.provisionEach owner done h = .ok () h₁ ∧ p.provisionOne owner path h₁ = .error e h'
  | [], h => by
      constructor
      · intro herror
        exact nomatch herror
      · rintro ⟨done, path, rest, h₁, hnil, -⟩
        exact absurd hnil.symm (by simp)
  | first :: others, h => by
      have hcons : p.provisionEach owner (first :: others) =
          p.provisionOne owner first >>= fun _ => p.provisionEach owner others := rfl
      constructor
      · intro herror
        cases hone : p.provisionOne owner first h with
        | error e₁ h₁ =>
            rw [hcons, bind_apply_of_error hone] at herror
            cases herror
            exact ⟨[], first, others, h, rfl, rfl, hone⟩
        | ok u h₁ =>
            rw [hcons, bind_apply_of_ok hone] at herror
            obtain ⟨done, path, rest, h₂, rfl, hdone, hlast⟩ :=
              provisionEach_eq_error_iff.1 herror
            refine ⟨first :: done, path, rest, h₂, rfl, ?_, hlast⟩
            exact (bind_apply_of_ok hone _).trans hdone
      · rintro ⟨done, path, rest, h₁, hpaths, hdone, hlast⟩
        cases done with
        | nil =>
            cases hpaths
            cases hdone
            exact bind_apply_of_error hlast _
        | cons first' done =>
            cases hpaths
            obtain ⟨u, h₂, hone, hrest⟩ := bind_apply_eq_ok_iff.1 hdone
            rw [hcons, bind_apply_of_ok hone]
            exact provisionEach_eq_error_iff.2 ⟨done, path, rest, h₁, rfl, hrest, hlast⟩

/-- What the directories of a list leave behind once they were made and given away. -/
theorem entries_of_provisionEach (hdirect : p.filesystem = .direct) {owner : String} :
    ∀ {paths : List Path} {h h' : Host}, p.provisionEach owner paths h = .ok () h' →
      h'.passwd = h.passwd ∧ ∀ q, (h'.tree.get? q).isSome = true ↔
        q ∈ paths ∨ (h.tree.get? q).isSome = true
  | [], h, h', hdone => by
      cases hdone
      exact ⟨rfl, by simp⟩
  | path :: rest, h, h', hdone => by
      obtain ⟨u, h₁, hone, hrest⟩ := bind_apply_eq_ok_iff.1 hdone
      have hends := oneEnds_provisionOne hdirect owner path h
      rw [hone] at hends
      cases hends with
      | done hmounted hnumber hpasswd hentries =>
          obtain ⟨hpasswd', hentries'⟩ := entries_of_provisionEach hdirect hrest
          refine ⟨hpasswd'.trans hpasswd, fun q => ?_⟩
          rw [hentries', hentries, List.mem_cons, or_left_comm, or_assoc]

/-- A first directory that was made and given away had its controller mounted, and an owner with a
number. -/
theorem first_of_provisionEach (hdirect : p.filesystem = .direct) {owner : String} {path : Path}
    {rest : List Path} {h h' : Host}
    (hdone : p.provisionEach owner (path :: rest) h = .ok () h') :
    ¬ h.tree.Unmounted path ∧ h.passwd.lookup owner ≠ none := by
  obtain ⟨u, h₁, hone, -⟩ := bind_apply_eq_ok_iff.1 hdone
  have hends := oneEnds_provisionOne hdirect owner path h
  rw [hone] at hends
  cases hends with
  | done hmounted hnumber _ _ => exact ⟨hmounted, hnumber⟩

end CgroupProvisioner

end Provisioning
