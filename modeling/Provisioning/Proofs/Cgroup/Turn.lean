/-
# `Provisioning.Proofs.Cgroup.Turn` — the turn of one directory, by direct calls

In its turn a directory of a group is looked for, made if nothing is there, and
given away with everything that a walk from it meets.  Each call may be
refused, and what was done before stays done.

    closed        it may not be looked at or made        the file tree is as it was
    numberless    the owner has no number                made, and not given away
    refused       an entry may not be given away         made, and given away in part
    done          everything was given away

**Stated here.**  In which of the four ways a turn ends, by what the file tree
holds when it begins, and which file tree it leaves (`TurnEnds`).  From this,
what any number of turns leave of each entry (`Tree.Advances`), and of the
directories whose turn is done (`Tree.Belongs`).
-/
import Provisioning.Proofs.Cgroup.Direct
import Provisioning.Proofs.Host.Walk

namespace Provisioning

open Run

namespace Tree

/-- There is an entry at a path, and it may be looked at. -/
def Seen (t : Tree) (q : Path) : Prop := ∃ n, t.get? q = some n ∧ n.denies.stat = false

/-- A directory can be had at a path: something is there already, or it can be made. -/
def Open (t : Tree) (q : Path) : Prop := t.Seen q ∨ t.Makeable q

/-- There is an entry at a path, and it may be given away. -/
def Givable (t : Tree) (q : Path) : Prop := ∃ n, t.get? q = some n ∧ n.denies.chown = false

/-- The tree with a directory at a path, which belongs to `uid` if nothing was there. -/
def made (t : Tree) (uid : Int) (q : Path) : Tree :=
  if t.contains q = true then t else t.put q { uid }

section
variable {t : Tree} {q r : Path} {n : Node} {uid : Int}

theorem made_of_some (hthere : t.get? q = some n) (uid : Int) : t.made uid q = t := by
  rw [made, if_pos (by rw [Table.contains, hthere]; rfl)]

theorem made_of_none (habsent : t.get? q = none) (uid : Int) : t.made uid q = t.put q { uid } := by
  rw [made, if_neg (by rw [Table.contains, habsent]; exact Bool.false_ne_true)]

theorem get?_made (t : Tree) (uid : Int) (q r : Path) :
    (t.made uid q).get? r =
      if r = q then some ((t.get? r).getD { uid }) else t.get? r := by
  cases hthere : t.get? q with
  | some n =>
      rw [made_of_some hthere]
      by_cases hr : r = q
      · subst hr
        rw [if_pos rfl, hthere]
        rfl
      · rw [if_neg hr]
  | none =>
      rw [made_of_none hthere]
      by_cases hr : r = q
      · subst hr
        rw [if_pos rfl, hthere]
        exact Table.get?_put_self _ _ _
      · rw [if_neg hr]
        exact Table.get?_put_of_ne _ (Ne.symm hr) _

theorem givable_give (t : Tree) (uid : Int) (q r : Path) :
    (t.give uid q).Givable r ↔ t.Givable r := by
  unfold Givable
  rw [get?_give]
  by_cases hr : r = q
  · rw [if_pos hr]
    constructor
    · rintro ⟨m, hm, hallowed⟩
      obtain ⟨n, hn, rfl⟩ := Option.map_eq_some_iff.1 hm
      exact ⟨n, hn, hallowed⟩
    · rintro ⟨n, hn, hallowed⟩
      exact ⟨n.ownedBy uid, by rw [hn]; rfl, hallowed⟩
  · rw [if_neg hr]

theorem Seen.made (hseen : t.Seen r) (uid : Int) (q : Path) : (t.made uid q).Seen r := by
  obtain ⟨n, hthere, hallowed⟩ := hseen
  refine ⟨n, ?_, hallowed⟩
  rw [get?_made, hthere]
  split <;> rfl

/-- What is open can be looked at once it is there. -/
theorem Open.seen_made (hopen : t.Open q) (uid : Int) : (t.made uid q).Seen q := by
  rcases hopen with hseen | hmakeable
  · exact hseen.made uid q
  · rw [made_of_none hmakeable.1]
    exact ⟨{ uid }, Table.get?_put_self _ _ _, rfl⟩

end

/-! ## What turns leave of an entry -/

/-- `after` is `before` with directories made, and entries given to the user `uid`. -/
structure Advances (uid : Int) (before after : Tree) : Prop where
  kept : ∀ {q : Path} {n : Node}, before.get? q = some n →
    ∃ m, after.get? q = some m ∧ m.type = n.type ∧ m.denies = n.denies ∧
      (m.uid = n.uid ∨ m.uid = uid)
  fresh : ∀ {q : Path} {m : Node}, before.get? q = none → after.get? q = some m →
    m.type = .directory ∧ m.denies = {}

/-- There is an entry at a path, it may be looked at, and it is the user's. -/
def Belongs (t : Tree) (uid : Int) (q : Path) : Prop :=
  ∃ n, t.get? q = some n ∧ n.denies.stat = false ∧ n.uid = uid

namespace Advances

variable {uid : Int} {t t' t'' : Tree} {q : Path}

theorem refl (uid : Int) (t : Tree) : Advances uid t t := by
  refine ⟨fun {q n} hthere => ⟨n, hthere, rfl, rfl, .inl rfl⟩, ?_⟩
  intro q m habsent hthere
  rw [habsent] at hthere
  exact nomatch hthere

theorem trans (hfirst : Advances uid t t') (hsecond : Advances uid t' t'') :
    Advances uid t t'' := by
  constructor
  · intro q n hthere
    obtain ⟨m, hm, htype, hdenies, huid⟩ := hfirst.kept hthere
    obtain ⟨m', hm', htype', hdenies', huid'⟩ := hsecond.kept hm
    refine ⟨m', hm', htype'.trans htype, hdenies'.trans hdenies, ?_⟩
    rcases huid' with hsame | hgiven
    · rw [hsame]
      exact huid
    · exact .inr hgiven
  · intro q m' habsent hthere
    cases hmiddle : t'.get? q with
    | none => exact hsecond.fresh hmiddle hthere
    | some m =>
        obtain ⟨htype, hdenies⟩ := hfirst.fresh habsent hmiddle
        obtain ⟨m'', hm'', htype', hdenies', -⟩ := hsecond.kept hmiddle
        rw [hthere] at hm''
        cases hm''
        exact ⟨htype'.trans htype, hdenies'.trans hdenies⟩

theorem made (t : Tree) (uid euid : Int) (q : Path) : Advances uid t (t.made euid q) := by
  constructor
  · intro r n hthere
    refine ⟨n, ?_, rfl, rfl, .inl rfl⟩
    rw [get?_made, hthere]
    split <;> rfl
  · intro r m habsent hthere
    rw [get?_made, habsent] at hthere
    split at hthere
    · cases hthere
      exact ⟨rfl, rfl⟩
    · exact nomatch hthere

theorem giveAll (t : Tree) (uid : Int) (qs : List Path) : Advances uid t (t.giveAll uid qs) := by
  constructor
  · intro r n hthere
    rw [get?_giveAll, hthere]
    split
    · exact ⟨_, rfl, rfl, rfl, .inr rfl⟩
    · exact ⟨n, rfl, rfl, rfl, .inl rfl⟩
  · intro r m habsent hthere
    rw [get?_giveAll, habsent] at hthere
    split at hthere <;> exact nomatch hthere

/-- What was made the user's stays the user's. -/
theorem belongs (hadvances : Advances uid t t') (hbelongs : t.Belongs uid q) :
    t'.Belongs uid q := by
  obtain ⟨n, hthere, hseen, rfl⟩ := hbelongs
  obtain ⟨m, hm, -, hdenies, huid⟩ := hadvances.kept hthere
  exact ⟨m, hm, hdenies ▸ hseen, huid.elim id id⟩

/-- What is at a path afterwards is a file exactly if it was one before. -/
theorem typeAt_eq_file_iff (hadvances : Advances uid t t') :
    t'.typeAt q = some .file ↔ t.typeAt q = some .file := by
  unfold typeAt
  cases hthere : t.get? q with
  | some n =>
      obtain ⟨m, hm, htype, -, -⟩ := hadvances.kept hthere
      rw [hm, Option.map_some, Option.map_some, htype]
  | none =>
      cases hafter : t'.get? q with
      | none => rfl
      | some m => simp [(hadvances.fresh hthere hafter).1]

end Advances

end Tree

/-! ## Giving away -/

namespace CgroupFilesystem

variable {path : Path} {owner : String} {uid : Int} {h : Host}

theorem chown_of_givable (start : Path) (uid : Int) {q : Path} (hgivable : h.tree.Givable q) :
    chown start q uid h = .ok ()
      { h with tree := h.tree.give uid q, journal := h.journal ++ [.chowned start q uid] } := by
  obtain ⟨n, hthere, hallowed⟩ := hgivable
  unfold chown Tree.chown Tree.give
  rw [hthere]
  simp only [hallowed]
  rfl

theorem chown_of_not_givable (start : Path) (uid : Int) {q : Path} (hnot : ¬ h.tree.Givable q) :
    ∃ e, chown start q uid h = .error e h := by
  unfold chown Tree.chown
  cases hthere : h.tree.get? q with
  | none => exact ⟨_, rfl⟩
  | some n =>
      cases hdenied : n.denies.chown with
      | true => exact ⟨.system (.about SystemError.notPermitted q.toString), by simp [hdenied]⟩
      | false => exact absurd ⟨n, hthere, hdenied⟩ hnot

/-- How giving the entries of a list away ends, when it begins on the host `h`. -/
inductive GiveEnds (uid : Int) (qs : List Path) (h : Host) :
    EStateM.Result Fault Host Unit → Prop where
  /-- One of them may not be given away, and some before it were. -/
  | refused {e : Fault} {h' : Host} {given : List Path} (hnot : ¬ ∀ q ∈ qs, h.tree.Givable q)
      (hgiven : given <+: qs) (htree : h'.tree = h.tree.giveAll uid given) :
      GiveEnds uid qs h (.error e h')
  /-- All were given away. -/
  | given {h' : Host} (hall : ∀ q ∈ qs, h.tree.Givable q)
      (htree : h'.tree = h.tree.giveAll uid qs) : GiveEnds uid qs h (.ok () h')

theorem giveEnds_of_not_givable {q : Path} {qs : List Path} {e : Fault}
    (hnot : ¬ h.tree.Givable q) : GiveEnds uid (q :: qs) h (.error e h) :=
  @GiveEnds.refused uid (q :: qs) h e h [] (fun hall => hnot (hall q List.mem_cons_self))
    List.nil_prefix rfl

/-- Giving away goes on as it does where the first entry was given away. -/
theorem GiveEnds.cons {q : Path} {qs : List Path} {h₁ : Host}
    {result : EStateM.Result Fault Host Unit} (hgivable : h.tree.Givable q)
    (htree : h₁.tree = h.tree.give uid q) (hends : GiveEnds uid qs h₁ result) :
    GiveEnds uid (q :: qs) h result := by
  have hsame : ∀ r, h₁.tree.Givable r ↔ h.tree.Givable r := by
    intro r
    rw [htree]
    exact h.tree.givable_give uid q r
  cases hends with
  | @refused e h' given hnot hgiven hleft =>
      refine @GiveEnds.refused uid (q :: qs) h e h' (q :: given) (fun hall => hnot fun r hr => ?_)
        ((List.prefix_cons_inj q).2 hgiven) (by rw [hleft, htree]; rfl)
      exact (hsame r).2 (hall r (List.mem_cons_of_mem _ hr))
  | @given h' hall hleft =>
      refine .given (fun r hr => ?_) (by rw [hleft, htree]; rfl)
      rcases List.mem_cons.1 hr with rfl | hr
      · exact hgivable
      · exact (hsame r).1 (hall r hr)

theorem giveEnds_chownEach (start : Path) (uid : Int) :
    ∀ (qs : List Path) (h : Host), GiveEnds uid qs h (chownEach start uid qs h) := by
  intro qs
  induction qs with
  | nil =>
      intro h
      exact .given (fun q hq => absurd hq List.not_mem_nil) rfl
  | cons q qs ih =>
      intro h
      unfold chownEach
      by_cases hgivable : h.tree.Givable q
      · rw [bind_apply_of_ok (chown_of_givable start uid hgivable)]
        exact .cons hgivable rfl (ih _)
      · obtain ⟨e, hrefused⟩ := chown_of_not_givable start uid hgivable
        rw [bind_apply_of_error hrefused]
        exact giveEnds_of_not_givable hgivable

/-- The refusal of a change of the owner, for lack of rights. -/
def ownerDenied (path : Path) (owner : String) (e : SystemError) : Fault :=
  .refuseFrom (.system e) .permissionDenied
    ("Permission denied changing the owner of " ++ path.toString)
    [("path", .text path.toString), ("owner", .text owner)]

/-- What is made of a failure when the owner of a path was to be changed. -/
def ofChown (path : Path) (owner : String) : Fault → Option Fault
  | .system e => if e.isRefused then some (ownerDenied path owner e) else none
  | _ => none

/-- For an owner with a number, what a path reaches is given away, one entry after the other. -/
theorem directChangeOwner_of_numbered (path : Path) (hnumber : h.passwd.lookup owner = some uid) :
    directChangeOwner path owner h =
      mapFault (ofChown path owner) (chownEach path uid (h.tree.reach path)) h := by
  unfold directChangeOwner
  rw [bind_apply_of_ok (requireUser_of_some hnumber)]
  have hsame : (do chown path path uid; let h ← get; chownEach path uid (h.tree.walk path) : Run Unit) h
      = chownEach path uid (h.tree.reach path) h := by
    show _ = (chown path path uid >>= fun _ => chownEach path uid (h.tree.walk path)) h
    by_cases hgivable : h.tree.Givable path
    · have hchowned := chown_of_givable path uid hgivable
      rw [bind_apply_of_ok hchowned, bind_apply_of_ok hchowned]
      -- the walk is that of the tree in which the path itself was given away
      show chownEach path uid ((h.tree.give uid path).walk path) _ = _
      rw [Tree.walk_give]
    · obtain ⟨e, hrefused⟩ := chown_of_not_givable path uid hgivable
      rw [bind_apply_of_error hrefused, bind_apply_of_error hrefused]
  unfold mapFault
  rw [hsame]
  rfl

/-- A path is given away with all that a walk from it meets. -/
theorem giveEnds_directChangeOwner (path : Path) (hnumber : h.passwd.lookup owner = some uid) :
    GiveEnds uid (h.tree.reach path) h (directChangeOwner path owner h) := by
  rw [directChangeOwner_of_numbered path hnumber]
  have hends := giveEnds_chownEach path uid (h.tree.reach path) h
  cases hgive : chownEach path uid (h.tree.reach path) h with
  | ok u h' =>
      rw [hgive] at hends
      rwa [mapFault_eq_ok_iff.2 hgive]
  | error e h' =>
      rw [hgive] at hends
      rw [mapFault_of_error hgive]
      cases hends with
      | refused hnot hgiven htree => exact .refused hnot hgiven htree

/-! ## Making -/

/-- How a directory comes to be there, by a direct call on the host `h`. -/
inductive MakeEnds (path : Path) (h : Host) : EStateM.Result Fault Host Bool → Prop where
  /-- It may not be looked at, or not be made. -/
  | closed {e : Fault} (hclosed : ¬ h.tree.Open path) : MakeEnds path h (.error e h)
  /-- It was there, or was made. -/
  | made {isNew : Bool} {h' : Host} (hopen : h.tree.Open path)
      (htree : h'.tree = h.tree.made h.euid path) (hpasswd : h'.passwd = h.passwd) :
      MakeEnds path h (.ok isNew h')

theorem makeEnds_directEnsureDirectory (path : Path) (h : Host) :
    MakeEnds path h (directEnsureDirectory path h) := by
  cases hthere : h.tree.get? path with
  | some n =>
      cases hdenied : n.denies.stat with
      | false =>
          rw [directEnsureDirectory_of_seen hthere hdenied]
          exact .made (.inl ⟨n, hthere, hdenied⟩) (Tree.made_of_some hthere _).symm rfl
      | true =>
          rw [directEnsureDirectory_of_hidden hthere hdenied]
          refine .closed ?_
          rintro (⟨m, hm, hseen⟩ | hmakeable)
          · rw [hthere] at hm
            cases hm
            rw [hdenied] at hseen
            cases hseen
          · rw [hmakeable.1] at hthere
            cases hthere
  | none =>
      have hends := ensureEnds_directEnsureDirectory path h
      have hunseen : ¬ h.tree.Seen path := by
        rintro ⟨m, hm, -⟩
        rw [hthere] at hm
        cases hm
      cases hmade : directEnsureDirectory path h with
      | error e h' =>
          rw [hmade] at hends
          cases hends with
          | unmounted hunmounted =>
              exact .closed (not_or.2 ⟨hunseen, fun hmakeable =>
                hmakeable.not_unmounted hunmounted⟩)
          | refused hlate hmounted hnot => exact .closed (not_or.2 ⟨hunseen, hnot⟩)
      | ok isNew h' =>
          rw [hmade] at hends
          cases hends with
          | there hfound => exact absurd hthere hfound
          | made hmakeable =>
              exact .made (.inr hmakeable) (Tree.made_of_none hmakeable.1 _).symm rfl

end CgroupFilesystem

/-! ## One turn -/

namespace CgroupProvisioner

variable {p : CgroupProvisioner} {owner : String}

/-- How the turn of a directory ends by direct calls, when it begins on the host `h`. -/
inductive TurnEnds (owner : String) (path : Path) (h : Host) :
    EStateM.Result Fault Host Unit → Prop where
  /-- The directory may not be looked at, or not be made. -/
  | closed {e : Fault} {h' : Host} (hclosed : ¬ h.tree.Open path) (htree : h'.tree = h.tree) :
      TurnEnds owner path h (.error e h')
  /-- The directory is there, and the owner has no number. -/
  | numberless {e : Fault} {h' : Host} (hopen : h.tree.Open path)
      (hnumber : h.passwd.lookup owner = none) (htree : h'.tree = h.tree.made h.euid path) :
      TurnEnds owner path h (.error e h')
  /-- The directory is there, and not all of it may be given away. -/
  | refused {e : Fault} {h' : Host} {uid : Int} {given : List Path} (hopen : h.tree.Open path)
      (hnumber : h.passwd.lookup owner = some uid)
      (hnot : ¬ ∀ q ∈ (h.tree.made h.euid path).reach path, (h.tree.made h.euid path).Givable q)
      (hgiven : given <+: (h.tree.made h.euid path).reach path)
      (htree : h'.tree = (h.tree.made h.euid path).giveAll uid given) :
      TurnEnds owner path h (.error e h')
  /-- The directory is there, and all of it was given away. -/
  | done {h' : Host} {uid : Int} (hopen : h.tree.Open path)
      (hnumber : h.passwd.lookup owner = some uid)
      (hall : ∀ q ∈ (h.tree.made h.euid path).reach path, (h.tree.made h.euid path).Givable q)
      (htree : h'.tree = (h.tree.made h.euid path).giveAll uid
        ((h.tree.made h.euid path).reach path)) : TurnEnds owner path h (.ok () h')

/-- A directory that is there is given away. -/
theorem turnEnds_giveAway {path : Path} {h h₁ : Host} (hopen : h.tree.Open path)
    (htree : h₁.tree = h.tree.made h.euid path) (hpasswd : h₁.passwd = h.passwd) :
    TurnEnds owner path h (giveAway path owner h₁) := by
  unfold giveAway
  cases hnumber : h.passwd.lookup owner with
  | none =>
      have hnone : h₁.passwd.lookup owner = none := hpasswd ▸ hnumber
      rw [bind_apply_of_error (CgroupFilesystem.directChangeOwner_of_numberless hnone)]
      exact .numberless hopen hnumber htree
  | some uid =>
      have hgive := CgroupFilesystem.giveEnds_directChangeOwner path
        (show h₁.passwd.lookup owner = some uid from hpasswd ▸ hnumber)
      cases hended : CgroupFilesystem.directChangeOwner path owner h₁ with
      | error e h₂ =>
          rw [hended] at hgive
          rw [bind_apply_of_error hended]
          cases hgive with
          | refused hnot hgiven hleft =>
              rw [htree] at hnot hgiven hleft
              exact .refused hopen hnumber hnot hgiven hleft
      | ok u h₂ =>
          rw [hended] at hgive
          rw [bind_apply_of_ok hended]
          cases hgive with
          | given hall hleft =>
              rw [htree] at hall hleft
              exact .done hopen hnumber hall hleft

theorem turnEnds_provisionOne (hdirect : p.filesystem = .direct) (owner : String) (path : Path)
    (h : Host) : TurnEnds owner path h (p.provisionOne owner path h) := by
  have hmake := CgroupFilesystem.makeEnds_directEnsureDirectory path
    (h.noted (.requested (.ensureDirectory path)))
  cases hmade : CgroupFilesystem.directEnsureDirectory path
      (h.noted (.requested (.ensureDirectory path))) with
  | error e h₁ =>
      rw [hmade] at hmake
      rw [provisionOne_of_error hdirect hmade]
      cases hmake with
      | closed hclosed => exact .closed hclosed rfl
  | ok isNew h₁ =>
      rw [hmade] at hmake
      rw [provisionOne_of_ok hdirect hmade]
      cases hmake with
      | made hopen htree hpasswd => exact turnEnds_giveAway hopen htree hpasswd

/-! ## Turn after turn -/

instance : Steady (SameBy Host.passwd) := steady_sameBy (by
  rintro h h' ⟨_, _, _, _, _, _, rfl, _⟩
  rfl)

theorem passwd_provisionOne (p : CgroupProvisioner) (owner : String) (path : Path) :
    Leads (SameBy Host.passwd) (p.provisionOne owner path) :=
  steady_provisionOne p (fun _ => rfl) fun _ => rfl

theorem passwd_provision (p : CgroupProvisioner) (group owner : String) :
    Leads (SameBy Host.passwd) (p.provision group owner) :=
  steady_provision p group owner fun _ _ _ _ => ⟨fun _ => rfl, fun _ => rfl⟩

/-- A turn that is done leaves its directory to the owner. -/
theorem TurnEnds.belongs {path : Path} {h h' : Host} (hends : TurnEnds owner path h (.ok () h')) :
    ∃ uid, h.passwd.lookup owner = some uid ∧ Tree.Advances uid h.tree h'.tree ∧
      h'.tree.Belongs uid path := by
  cases hends with
  | @done h' uid hopen hnumber hall htree =>
      obtain ⟨n, hthere, hseen⟩ := hopen.seen_made h.euid
      refine ⟨uid, hnumber, ?_, n.ownedBy uid, ?_, hseen, rfl⟩
      · rw [htree]
        exact (Tree.Advances.made h.tree uid h.euid path).trans (.giveAll _ uid _)
      · rw [htree, Tree.get?_giveAll, if_pos (Tree.mem_reach_self _ path), hthere]
        rfl

/-- Turns that are done leave their directories to the owner. -/
theorem belongs_of_provisionEach (hdirect : p.filesystem = .direct) {uid : Int} :
    ∀ {paths : List Path} {h h' : Host}, p.provisionEach owner paths h = .ok () h' →
      h.passwd.lookup owner = some uid →
      Tree.Advances uid h.tree h'.tree ∧ ∀ path ∈ paths, h'.tree.Belongs uid path := by
  intro paths
  induction paths with
  | nil =>
      intro h h' hdone _
      cases hdone
      exact ⟨.refl uid h.tree, fun path hpath => absurd hpath List.not_mem_nil⟩
  | cons first rest ih =>
      intro h h' hdone hnumber
      obtain ⟨u, h₁, hone, hrest⟩ := bind_apply_eq_ok_iff.1 hdone
      have hends := turnEnds_provisionOne hdirect owner first h
      rw [hone] at hends
      obtain ⟨uid', hnumber', hadvances, hfirst⟩ := hends.belongs
      rw [hnumber] at hnumber'
      cases hnumber'
      have hpasswd : h₁.passwd = h.passwd := (passwd_provisionOne p owner first).of_ok hone
      obtain ⟨hadvances', hothers⟩ := ih hrest (hpasswd ▸ hnumber)
      refine ⟨hadvances.trans hadvances', fun path hpath => ?_⟩
      rcases List.mem_cons.1 hpath with rfl | hpath
      · exact hadvances'.belongs hfirst
      · exact hothers path hpath

end CgroupProvisioner

end Provisioning
