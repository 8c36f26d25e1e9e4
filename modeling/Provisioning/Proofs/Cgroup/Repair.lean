/-
# `Provisioning.Proofs.Cgroup.Repair` — provisioning again after a failure

Provisioning a group may fail at any of its calls: a directory that cannot be
made, an entry that may not be given away, at any depth, or a controller that
is not mounted.  What was done until then stays.  Then someone repairs the
host: entries deny less, and controllers are mounted that were not.

    the host          h  ── fails ──▶  h₁
    repaired          repair h         repair h₁
    provisioned       h'               h₁'

**Stated here.**  The second call returns on the right exactly if it returns on
the left, and then both leave the same entries: what the failed call had done
already makes no difference (`provision_again_after_repair`).
-/
import Provisioning.Proofs.Cgroup.Ahead
import Provisioning.Proofs.Cgroup.Settled

namespace Provisioning

open Run

/-! ## Repairs -/

/-- Nothing that `c` names is denied any more. -/
def Denials.without (d c : Denials) : Denials where
  stat := d.stat && !c.stat
  mkdir := d.mkdir && !c.mkdir
  chown := d.chown && !c.chown

/-- What someone does to a file tree on which provisioning failed. -/
structure Repair where
  /-- What each entry denies no longer. -/
  cleared : Path → Denials
  /-- The controllers that are mounted where they are missing, and the user whose each then is. -/
  mounted : List (CgroupSubsystem × Int)

namespace Repair

/-- The entries of the tree, as open as the repair makes them. -/
def clear (r : Repair) (t : Tree) : Tree :=
  t.mapValues fun q n => { n with denies := n.denies.without (r.cleared q) }

/-- The tree with directories for controllers that were missing. -/
def mount (root : Path) (mounted : List (CgroupSubsystem × Int)) (t : Tree) : Tree :=
  mounted.foldl (fun t m => t.made m.2 (m.1.directory root)) t

/-- The repaired tree. -/
def apply (r : Repair) (root : Path) (t : Tree) : Tree := mount root r.mounted (r.clear t)

/-- The repaired host. -/
def host (r : Repair) (root : Path) (h : Host) : Host := { h with tree := r.apply root h.tree }

variable {r : Repair} {t t' : Tree} {paths : List Path} {q : Path}

theorem shape_clear (r : Repair) (t : Tree) : Tree.shape (r.clear t) = t.shape := by
  simp [Tree.shape, clear, Table.mapValues, Function.comp_def]

theorem get?_clear (r : Repair) (t : Tree) (q : Path) :
    (r.clear t).get? q =
      (t.get? q).map fun n => { n with denies := n.denies.without (r.cleared q) } :=
  Table.get?_mapValues _ _ _

theorem get?_clear_eq_none_iff : (r.clear t).get? q = none ↔ t.get? q = none := by
  rw [get?_clear, Option.map_eq_none_iff]

theorem reach_clear (r : Repair) (t : Tree) (p : Path) :
    Tree.reach (r.clear t) p = t.reach p := by
  have htype : Tree.typeAt (r.clear t) p = t.typeAt p := by
    rw [Tree.typeAt, get?_clear, Option.map_map]
    rfl
  rw [Tree.reach, Tree.reach, Tree.walk_congr (r.shape_clear t) htype]

/-- A repair takes no directory away, and no right to make one. -/
theorem makeable_clear (hmakeable : t.Makeable q) : Tree.Makeable (r.clear t) q := by
  obtain ⟨habsent, parent, hparent, htype, hallowed⟩ := hmakeable
  have hcleared : Table.get? (r.clear t) q.parent =
      some { parent with denies := parent.denies.without (r.cleared q.parent) } := by
    rw [get?_clear, hparent]
    rfl
  refine ⟨get?_clear_eq_none_iff.2 habsent, _, hcleared, htype, ?_⟩
  show (parent.denies.mkdir && _) = false
  rw [hallowed, Bool.false_and]

end Repair

namespace Tree.Ahead

variable {paths : List Path} {t t' : Tree}

theorem clear (hahead : Ahead paths t t') (r : Repair) : Ahead paths (r.clear t) (r.clear t') := by
  constructor
  · intro q n hn
    rw [Repair.get?_clear] at hn ⊢
    obtain ⟨n, hthere, rfl⟩ := Option.map_eq_some_iff.1 hn
    rcases hahead.kept hthere with hsame | ⟨v, path, howned, hpath, hreach⟩
    · exact .inl (by rw [hsame]; rfl)
    · exact .inr ⟨v, path, by rw [howned]; rfl, hpath, r.reach_clear t' path ▸ hreach⟩
  · intro q m habsent hm
    rw [Repair.get?_clear] at hm
    obtain ⟨m, hthere, rfl⟩ := Option.map_eq_some_iff.1 hm
    obtain ⟨hmem, hmakeable, v, rfl⟩ :=
      hahead.fresh (Repair.get?_clear_eq_none_iff.1 habsent) hthere
    exact ⟨hmem, Repair.makeable_clear hmakeable, v, rfl⟩
  · intro q type
    rw [Repair.shape_clear, Repair.shape_clear, hahead.listed, Repair.get?_clear_eq_none_iff,
      Repair.get?_clear, Option.isSome_map]

theorem mount (root : Path) :
    ∀ {mounted : List (CgroupSubsystem × Int)} {t t' : Tree}, Ahead paths t t' →
      Ahead paths (Repair.mount root mounted t) (Repair.mount root mounted t') := by
  intro mounted
  induction mounted with
  | nil =>
      intro t t' hahead
      exact hahead
  | cons m rest ih =>
      intro t t' hahead
      exact ih (hahead.made (.inl rfl))

/-- The same repair keeps a tree ahead of the other. -/
theorem repaired (hahead : Ahead paths t t') (r : Repair) (root : Path) :
    Ahead paths (r.apply root t) (r.apply root t') := (hahead.clear r).mount root

end Tree.Ahead

/-! ## The failed call, and the next -/

namespace CgroupProvisioner

variable {p : CgroupProvisioner} {group owner : String} {h h₁ : Host}

/-- Asking the accounts about an owner leaves the file tree alone. -/
def AsksOnly (p : CgroupProvisioner) (h : Host) : Prop :=
  ∀ store, p.identities = some store → store.LooksOnly h

theorem AsksOnly.of_programs (hasks : p.AsksOnly h) (hsame : h₁.programs = h.programs) :
    p.AsksOnly h₁ := fun store hstore => (hasks store hstore).of_programs hsame

theorem AsksOnly.tree_eq (hasks : p.AsksOnly h) (owner : String) :
    ((p.ownerIsKnown owner).hostAfter h).tree = h.tree := by
  cases hstore : p.identities with
  | none =>
      have hlooks : Leads (SameBy Host.tree) (p.ownerIsKnown owner) := by
        unfold ownerIsKnown
        rw [hstore]
        exact Leads.ite (leads_pure _) (leads_pure _)
      exact hlooks h
  | some store => exact (looked_ownerIsKnown hstore owner h).tree_eq (hasks store hstore)

/-- A known owner is given the directories of a group exactly when the group has a name and the turn
of each directory is done. -/
theorem provision_eq_ok_iff (hknown : p.ownerIsKnown owner h = .ok true h₁) {paths : List Path}
    {h' : Host} :
    p.provision group owner h = .ok paths h' ↔
      group ≠ "" ∧ paths = groupPaths p.root group ∧
        p.provisionEach owner (groupPaths p.root group) h₁ = .ok () h' := by
  constructor
  · intro hprovision
    have hends := p.provisionEnds_provision group owner h
    rw [hprovision] at hends
    cases hends with
    | provisioned hknown' hgroup heach =>
        rw [hknown] at hknown'
        cases hknown'
        exact ⟨ne_empty_of_forGroup hgroup, rfl, heach⟩
  · rintro ⟨hgroup, rfl, heach⟩
    rw [provision_of_known hknown (CgroupSpec.forGroup_of_ne hgroup), bind_apply_of_ok heach]
    rfl

instance : Steady (SameBy Host.programs) := steady_sameBy fun _ _ hproceeds => hproceeds.programs_eq

theorem programs_provision (p : CgroupProvisioner) (group owner : String) :
    Leads (SameBy Host.programs) (p.provision group owner) :=
  steady_provision p group owner fun _ _ _ _ => ⟨fun _ => rfl, fun _ => rfl⟩

/-- What a failed call leaves is ahead of what it began with. -/
theorem ahead_of_failed (hdirect : p.filesystem = .direct) (hasks : p.AsksOnly h) {e : Fault}
    (hfailed : p.provision group owner h = .error e h₁) :
    h.tree.Ahead (groupPaths p.root group) h₁.tree := by
  have hasked := hasks.tree_eq owner
  have hends := p.provisionEnds_provision group owner h
  rw [hfailed] at hends
  cases hends with
  | unasked hknown =>
      rw [hostAfter_of_error hknown] at hasked
      exact hasked ▸ .refl _ _
  | unknown hknown =>
      rw [hostAfter_of_ok hknown] at hasked
      exact hasked ▸ .refl _ _
  | unnamed hknown hgroup =>
      rw [hostAfter_of_ok hknown] at hasked
      exact hasked ▸ .refl _ _
  | failed hknown hgroup heach =>
      rw [hostAfter_of_ok hknown] at hasked
      have hkeeps := keepsAhead_provisionEach hdirect (unnested_groupPaths p.root group) h.tree
        owner (List.Subset.refl _)
      exact hkeeps.of_error heach (hasked ▸ .refl _ _)

/-- **Provisioning again after a repair.**  On a host on which a call failed, and that was repaired
since, the next call returns exactly if it would have returned on the host repaired without the
failed call, and then it leaves the same entries. -/
theorem provision_again_after_repair (hdirect : p.filesystem = .direct) (hasks : p.AsksOnly h)
    {e : Fault} (hfailed : p.provision group owner h = .error e h₁) (repair : Repair)
    (hknows : p.Knows owner (repair.host p.root h))
    (hknows₁ : p.Knows owner (repair.host p.root h₁)) :
    ((∃ paths h₁', p.provision group owner (repair.host p.root h₁) = .ok paths h₁') ↔
        ∃ paths h', p.provision group owner (repair.host p.root h) = .ok paths h') ∧
      ∀ {paths paths₁ h' h₁'}, p.provision group owner (repair.host p.root h) = .ok paths h' →
        p.provision group owner (repair.host p.root h₁) = .ok paths₁ h₁' →
        paths₁ = paths ∧ ∀ q, h₁'.tree.get? q = h'.tree.get? q := by
  have hbefore := ahead_of_failed hdirect hasks hfailed
  have hpasswd : h₁.passwd = h.passwd := (passwd_provision p group owner).of_error hfailed
  have hasks₁ : p.AsksOnly h₁ :=
    hasks.of_programs ((programs_provision p group owner).of_error hfailed)
  -- the owner is known on both repaired hosts, and asking leaves them as they were
  have hasked : ∀ {g}, p.AsksOnly g → p.Knows owner (repair.host p.root g) →
      ∃ g', p.ownerIsKnown owner (repair.host p.root g) = .ok true g' ∧
        g'.tree = repair.apply p.root g.tree ∧ g'.passwd = g.passwd := by
    intro g hasks hknows
    obtain ⟨g', hknown⟩ := hknows.ownerIsKnown
    have hasks' : p.AsksOnly (repair.host p.root g) := hasks.of_programs rfl
    have htree := hasks'.tree_eq owner
    rw [hostAfter_of_ok hknown] at htree
    have hsame : SameBy Host.passwd (repair.host p.root g) g' :=
      (steady_ownerIsKnown p owner).of_ok hknown
    exact ⟨g', hknown, htree, hsame⟩
  obtain ⟨g, hknown, htree, hsame⟩ := hasked hasks hknows
  obtain ⟨g₁, hknown₁, htree₁, hsame₁⟩ := hasked hasks₁ hknows₁
  have hahead : g.tree.Ahead (groupPaths p.root group) g₁.tree := by
    rw [htree, htree₁]
    exact hbefore.repaired repair p.root
  obtain ⟨hreturns, hentries⟩ := @provisionEach_ahead p owner hdirect _ _ _
    (unnested_groupPaths p.root group) hahead (hsame₁.trans (hpasswd.trans hsame.symm))
  constructor
  · simp only [provision_eq_ok_iff hknown, provision_eq_ok_iff hknown₁]
    constructor
    · rintro ⟨paths, h₁', hgroup, -, heach⟩
      obtain ⟨h', heach'⟩ := hreturns.2 ⟨h₁', heach⟩
      exact ⟨_, h', hgroup, rfl, heach'⟩
    · rintro ⟨paths, h', hgroup, -, heach⟩
      obtain ⟨h₁', heach'⟩ := hreturns.1 ⟨h', heach⟩
      exact ⟨_, h₁', hgroup, rfl, heach'⟩
  · intro paths paths₁ h' h₁' hprovision hprovision₁
    obtain ⟨-, rfl, heach⟩ := (provision_eq_ok_iff hknown).1 hprovision
    obtain ⟨-, rfl, heach₁⟩ := (provision_eq_ok_iff hknown₁).1 hprovision₁
    exact ⟨rfl, hentries heach heach₁⟩

/-- A host on which only `blkio` is mounted, and a file of the group may not be given away. -/
def brokenHost : Host where
  passwd := [("root", 0), ("runner", 1000)]
  tree := .ofRows
    [(Path.ofString "/cg/blkio", {}), (Path.ofString "/cg/blkio/sp", {}),
      (Path.ofString "/cg/blkio/sp/job", {}),
      (Path.ofString "/cg/blkio/sp/tasks", { type := .file, denies := { chown := true } })]

/-- The file may be given away, and the other controllers are mounted. -/
def mending : Repair where
  cleared := fun _ => { chown := true }
  mounted := [(.cpuacct, 0), (.memory, 0), (.pids, 0), (.freezer, 0)]

/-- Provisions under `/cg` by direct calls, for users. -/
def onBroken : CgroupProvisioner :=
  { filesystem := .direct, root := Path.ofString "/cg", identities := some .posix }

/-- The call fails at the file, when the directory beside it was given away already; after the
repair the group is provisioned, and nothing tells that the first call took place. -/
theorem provision_again_after_repair_tasks :
    ∃ e h₁, onBroken.provision "sp" "runner" brokenHost = .error e h₁ ∧
      (h₁.tree.get? (Path.ofString "/cg/blkio/sp/job")).map Node.uid = some 1000 ∧
      ∃ paths h' h₁',
        onBroken.provision "sp" "runner" (mending.host onBroken.root brokenHost) = .ok paths h' ∧
        onBroken.provision "sp" "runner" (mending.host onBroken.root h₁) = .ok paths h₁' ∧
        ∀ q, h₁'.tree.get? q = h'.tree.get? q := by
  obtain ⟨e, h₁, hfailed, hpasswd, hgiven⟩ : ∃ e h₁,
      onBroken.provision "sp" "runner" brokenHost = .error e h₁ ∧
        h₁.passwd = brokenHost.passwd ∧
        (h₁.tree.get? (Path.ofString "/cg/blkio/sp/job")).map Node.uid = some 1000 := by
    decide +kernel
  obtain ⟨paths, h', hdone, -⟩ : ∃ paths h',
      onBroken.provision "sp" "runner" (mending.host onBroken.root brokenHost) = .ok paths h' ∧
        paths.length = 5 := by decide +kernel
  have hknows : ∀ g : Host, g.passwd = brokenHost.passwd → onBroken.Knows "runner" g := by
    intro g hpasswd
    refine ⟨by decide, ?_⟩
    rintro store ⟨⟩
    refine ⟨g, ?_⟩
    show EStateM.Result.ok (g.passwd.lookup "runner").isSome g = .ok true g
    rw [hpasswd]
    rfl
  have hasks : onBroken.AsksOnly brokenHost := by
    rintro store ⟨⟩
    trivial
  obtain ⟨hreturns, hentries⟩ := provision_again_after_repair rfl hasks hfailed mending
    (hknows _ rfl) (hknows _ hpasswd)
  obtain ⟨paths₁, h₁', hagain⟩ := hreturns.2 ⟨paths, h', hdone⟩
  obtain ⟨rfl, hsame⟩ := hentries hdone hagain
  exact ⟨e, h₁, hfailed, hgiven, _, h', h₁', hdone, hagain, hsame⟩

end CgroupProvisioner

end Provisioning
