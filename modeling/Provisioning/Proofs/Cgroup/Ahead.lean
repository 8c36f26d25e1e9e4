/-
# `Provisioning.Proofs.Cgroup.Ahead` — a tree on which some of the work is done already

Provisioning that failed leaves a tree between the one it began with and the
one it was to end with: some directories are there, some entries are given
away.  `Ahead paths t t'` says that `t'` is `t` with no other work done on it
than the turns of `paths` will do again.

    in t        in t'                    only where
    an entry    the same                 anywhere
    an entry    the same, another's      the turn of one of the paths reaches it
    nothing     nothing                  anywhere
    nothing     a new directory          at one of the paths, which can be made in t

None of the paths may lie within another (`Unnested`): then what lies below a
path is the same in both trees, and a turn meets the same entries in both.

**Stated here.**  A turn on the second tree, however it ends, keeps it ahead
(`keepsAhead_provisionEach`).  The turn of a path is done on both trees or on
neither, and afterwards the path is no longer needed to cover the difference
(`Ahead.provisionEach`); with no paths left the trees hold the same entries.
-/
import Provisioning.Proofs.Cgroup.Turn

namespace Provisioning

open Run

/-! ## Paths that do not lie within one another -/

/-- None of the paths lies within another one. -/
def Unnested (paths : List Path) : Prop :=
  ∀ p ∈ paths, ∀ q ∈ paths, q.isWithin p = true → q = p

theorem Unnested.tail {path : Path} {rest : List Path} (hunnested : Unnested (path :: rest)) :
    Unnested rest := fun p hp q hq =>
  hunnested p (List.mem_cons_of_mem _ hp) q (List.mem_cons_of_mem _ hq)

/-- The directories of a group lie side by side, or are all the same one. -/
theorem unnested_groupPaths (root : Path) (group : String) : Unnested (groupPaths root group) := by
  intro p hp q hq hwithin
  obtain ⟨c, rfl⟩ := mem_groupPaths.1 hp
  obtain ⟨d, rfl⟩ := mem_groupPaths.1 hq
  by_cases hrelative : (Path.ofString group).root = .relative
  · obtain ⟨hroot, below, hnames⟩ := Path.isWithin_iff.1 hwithin
    have hnone : below = [] := by
      have hlength := congrArg List.length hnames
      simp only [(groupPath_of_relative hrelative root _).2, List.length_append,
        List.length_cons] at hlength
      exact List.length_eq_zero_iff.1 (by omega)
    rw [hnone, List.append_nil] at hnames
    exact Path.ext hroot hnames
  · rw [groupPath_of_rooted hrelative, groupPath_of_rooted hrelative]

namespace Tree

variable {t t' : Tree} {paths : List Path} {p q path : Path} {uid : Int}

/-! ## What a turn reaches -/

theorem mem_reach_iff : q ∈ t.reach p ↔ q = p ∨ t.typeAt p = some .directory ∧ t.Met p q := by
  rw [reach, List.mem_cons, mem_walk_iff]

/-- What is reached in one tree is reached in another that lists all that the first one lists. -/
theorem mem_reach_of_lists (hreach : q ∈ t.reach p)
    (htype : t.typeAt p = some .directory → t'.typeAt p = some .directory)
    (hlists : ∀ r type, r.isWithin p = true → r ≠ p → (r, type) ∈ t.shape → (r, type) ∈ t'.shape) :
    q ∈ t'.reach p := by
  rw [mem_reach_iff] at hreach ⊢
  rcases hreach with hself | ⟨hdirectory, hmet⟩
  · exact .inl hself
  · exact .inr ⟨htype hdirectory, hmet.mono hlists⟩

theorem reach_giveAll (uid : Int) (p : Path) :
    ∀ (qs : List Path) (t : Tree), (t.giveAll uid qs).reach p = t.reach p := by
  intro qs
  induction qs with
  | nil =>
      intro t
      rfl
  | cons q qs ih =>
      intro t
      show ((t.give uid q).giveAll uid qs).reach p = t.reach p
      rw [ih, reach, reach, walk_give]

theorem isSome_giveAll (t : Tree) (uid : Int) (qs : List Path) (q : Path) :
    ((t.giveAll uid qs).get? q).isSome = (t.get? q).isSome := by
  rw [get?_giveAll]
  split
  · exact Option.isSome_map
  · rfl

/-- What was perhaps given away is as it was but for its owner. -/
theorem exists_of_giveAll {qs : List Path} {m : Node}
    (hthere : (t.giveAll uid qs).get? q = some m) :
    ∃ n v, t.get? q = some n ∧ m = n.ownedBy v := by
  rw [get?_giveAll] at hthere
  split at hthere
  · obtain ⟨n, hn, rfl⟩ := Option.map_eq_some_iff.1 hthere
    exact ⟨n, uid, hn, rfl⟩
  · exact ⟨m, m.uid, hthere, rfl⟩

theorem mem_shape_made {r : Path} {type : EntryType} :
    (r, type) ∈ (t.made uid path).shape ↔
      (r, type) ∈ t.shape ∨ r = path ∧ type = .directory ∧ t.get? path = none := by
  cases hthere : t.get? path with
  | some n =>
      rw [made_of_some hthere]
      simp
  | none =>
      rw [made_of_none hthere, shape_put_of_none hthere, List.mem_append, List.mem_singleton]
      simp [Prod.ext_iff]

theorem typeAt_made (htype : t.typeAt p = some .directory) (uid : Int) (path : Path) :
    (t.made uid path).typeAt p = some .directory := by
  unfold typeAt at htype ⊢
  obtain ⟨n, hthere, hdirectory⟩ := Option.map_eq_some_iff.1 htype
  rw [get?_made, hthere]
  split
  · exact congrArg some hdirectory
  · exact congrArg some hdirectory

/-- Making a directory cuts nothing off from a walk. -/
theorem mem_reach_made (hreach : q ∈ t.reach p) (uid : Int) (path : Path) :
    q ∈ (t.made uid path).reach p :=
  mem_reach_of_lists hreach (fun htype => typeAt_made htype uid path)
    fun _ _ _ _ hlisted => mem_shape_made.2 (.inl hlisted)

/-- A directory can still be made where there is still nothing. -/
theorem Advances.makeable (hadvances : Advances uid t t') (hmakeable : t.Makeable q)
    (habsent : t'.get? q = none) : t'.Makeable q := by
  obtain ⟨-, parent, hparent, htype, hallowed⟩ := hmakeable
  obtain ⟨parent', hparent', htype', hdenies, -⟩ := hadvances.kept hparent
  exact ⟨habsent, parent', hparent', htype'.trans htype, hdenies ▸ hallowed⟩

/-! ## Ahead -/

/-- `t'` is `t` with some of the work done already that the turns of `paths` do. -/
structure Ahead (paths : List Path) (t t' : Tree) : Prop where
  kept : ∀ {q : Path} {n : Node}, t.get? q = some n →
    t'.get? q = some n ∨
      ∃ v path, t'.get? q = some (n.ownedBy v) ∧ path ∈ paths ∧ q ∈ t'.reach path
  fresh : ∀ {q : Path} {m : Node}, t.get? q = none → t'.get? q = some m →
    q ∈ paths ∧ t.Makeable q ∧ ∃ v, m = { uid := v }
  listed : ∀ {q : Path} {type : EntryType}, (q, type) ∈ t'.shape ↔
    (q, type) ∈ t.shape ∨
      type = .directory ∧ t.get? q = none ∧ (t'.get? q).isSome = true

namespace Ahead

variable {n m : Node} {rest : List Path}

theorem refl (paths : List Path) (t : Tree) : Ahead paths t t := by
  refine ⟨fun hthere => .inl hthere, fun habsent hthere => ?_, ?_⟩
  · rw [habsent] at hthere
    exact nomatch hthere
  · intro q type
    refine ⟨fun hlisted => .inl hlisted, ?_⟩
    rintro (hlisted | ⟨-, habsent, hthere⟩)
    · exact hlisted
    · rw [habsent] at hthere
      exact nomatch hthere

/-- What is there in the first tree is there in the second, of the same type and as open. -/
theorem alike (hahead : Ahead paths t t') (hthere : t.get? q = some n) :
    ∃ m, t'.get? q = some m ∧ m.type = n.type ∧ m.denies = n.denies := by
  rcases hahead.kept hthere with hsame | ⟨v, -, howned, -, -⟩
  · exact ⟨n, hsame, rfl, rfl⟩
  · exact ⟨_, howned, rfl, rfl⟩

theorem absent (hahead : Ahead paths t t') (habsent : t'.get? q = none) : t.get? q = none := by
  cases hthere : t.get? q with
  | none => rfl
  | some n =>
      obtain ⟨m, hm, -⟩ := hahead.alike hthere
      rw [habsent] at hm
      exact nomatch hm

/-- With no paths left the trees hold the same entries. -/
theorem get?_eq (hahead : Ahead [] t t') (q : Path) : t'.get? q = t.get? q := by
  cases hthere : t.get? q with
  | some n =>
      rcases hahead.kept hthere with hsame | ⟨-, path, -, hpath, -⟩
      · exact hsame
      · exact absurd hpath List.not_mem_nil
  | none =>
      cases hthere' : t'.get? q with
      | none => rfl
      | some m => exact absurd (hahead.fresh hthere hthere').1 List.not_mem_nil

/-! ### Whether a directory can be had -/

/-- A directory that can be made in the second tree can be made in the first. -/
theorem makeable (hunnested : Unnested paths) (hahead : Ahead paths t t') (hpath : path ∈ paths)
    (hmakeable : t'.Makeable path) : t.Makeable path := by
  obtain ⟨habsent, parent, hparent, htype, hallowed⟩ := hmakeable
  cases hthere : t.get? path.parent with
  | some n =>
      obtain ⟨m, hm, htype', hdenies⟩ := hahead.alike hthere
      rw [hparent] at hm
      cases hm
      exact ⟨hahead.absent habsent, n, hthere, htype'.symm.trans htype, hdenies ▸ hallowed⟩
  | none =>
      -- the parent would be one of the paths, and hold another one
      have hmem := (hahead.fresh hthere hparent).1
      rw [← hunnested _ hmem _ hpath path.isWithin_parent, habsent] at hparent
      exact nomatch hparent

theorem open_iff (hunnested : Unnested paths) (hahead : Ahead paths t t') (hpath : path ∈ paths) :
    t.Open path ↔ t'.Open path := by
  constructor
  · rintro (⟨n, hthere, hseen⟩ | hmakeable)
    · obtain ⟨m, hm, -, hdenies⟩ := hahead.alike hthere
      exact .inl ⟨m, hm, hdenies ▸ hseen⟩
    · cases hthere : t'.get? path with
      | some m =>
          obtain ⟨-, -, v, rfl⟩ := hahead.fresh hmakeable.1 hthere
          exact .inl ⟨_, hthere, rfl⟩
      | none =>
          obtain ⟨-, parent, hparent, htype, hallowed⟩ := hmakeable
          obtain ⟨parent', hparent', htype', hdenies⟩ := hahead.alike hparent
          exact .inr ⟨hthere, parent', hparent', htype'.trans htype, hdenies ▸ hallowed⟩
  · rintro (⟨m, hthere, hseen⟩ | hmakeable)
    · cases hthere' : t.get? path with
      | none => exact .inr (hahead.fresh hthere' hthere).2.1
      | some n =>
          obtain ⟨m', hm', -, hdenies⟩ := hahead.alike hthere'
          rw [hthere] at hm'
          cases hm'
          exact .inl ⟨n, hthere', hdenies ▸ hseen⟩
    · exact .inr (hahead.makeable hunnested hpath hmakeable)

/-! ### Work on the second tree -/

/-- A directory made at one of the paths keeps the second tree ahead. -/
theorem made_right (hunnested : Unnested paths) (hahead : Ahead paths t t') (hpath : path ∈ paths)
    (hopen : t'.Open path) (uid : Int) : Ahead paths t (t'.made uid path) := by
  cases hthere : t'.get? path with
  | some m =>
      rw [made_of_some hthere]
      exact hahead
  | none =>
      have hmakeable' : t'.Makeable path := by
        refine hopen.resolve_left ?_
        rintro ⟨m, hm, -⟩
        rw [hthere] at hm
        exact nomatch hm
      have hmakeable := hahead.makeable hunnested hpath hmakeable'
      constructor
      · intro q n hn
        have hne : q ≠ path := by
          rintro rfl
          rw [hmakeable.1] at hn
          exact nomatch hn
        rw [get?_made, if_neg hne]
        rcases hahead.kept hn with hsame | ⟨v, path', howned, hpath', hreach⟩
        · exact .inl hsame
        · exact .inr ⟨v, path', howned, hpath', mem_reach_made hreach uid path⟩
      · intro q m habsent hm
        by_cases hq : q = path
        · subst hq
          rw [get?_made, if_pos rfl, hthere] at hm
          exact ⟨hpath, hmakeable, uid, (Option.some.inj hm).symm⟩
        · rw [get?_made, if_neg hq] at hm
          exact hahead.fresh habsent hm
      · intro q type
        rw [mem_shape_made, hahead.listed, get?_made]
        by_cases hq : q = path
        · subst hq
          simp [hthere, hmakeable.1]
        · simp [hq]

/-- Entries that the turn of a path reaches may be given away in the second tree. -/
theorem giveAll_right (hahead : Ahead paths t t') (hpath : path ∈ paths) {qs : List Path}
    (hqs : ∀ q ∈ qs, q ∈ t'.reach path) (uid : Int) : Ahead paths t (t'.giveAll uid qs) := by
  constructor
  · intro q n hn
    rw [get?_giveAll]
    by_cases hq : q ∈ qs
    · have howned : (t'.get? q).map (·.ownedBy uid) = some (n.ownedBy uid) := by
        rcases hahead.kept hn with hsame | ⟨v, _, howned, -, -⟩
        · rw [hsame]
          rfl
        · rw [howned]
          rfl
      rw [if_pos hq, howned]
      exact .inr ⟨uid, path, rfl, hpath, reach_giveAll uid path qs t' ▸ hqs q hq⟩
    · rw [if_neg hq]
      rcases hahead.kept hn with hsame | ⟨v, path', howned, hpath', hreach⟩
      · exact .inl hsame
      · exact .inr ⟨v, path', howned, hpath', reach_giveAll uid path' qs t' ▸ hreach⟩
  · intro q m habsent hm
    obtain ⟨m', v, hm', rfl⟩ := exists_of_giveAll hm
    obtain ⟨hmem, hmakeable, _, rfl⟩ := hahead.fresh habsent hm'
    exact ⟨hmem, hmakeable, v, rfl⟩
  · intro q type
    rw [shape_giveAll, hahead.listed, isSome_giveAll]

/-! ### Work on both trees -/

/-- A directory made in both trees keeps the second one ahead, if it is the same user's in both or is
at one of the paths. -/
theorem made (hahead : Ahead paths t t') {uid uid' : Int} (huid : uid' = uid ∨ path ∈ paths) :
    Ahead paths (t.made uid path) (t'.made uid' path) := by
  constructor
  · intro q n hn
    by_cases hq : q = path
    · subst hq
      rw [get?_made, if_pos rfl] at hn ⊢
      cases hthere : t.get? q with
      | some n' =>
          rw [hthere] at hn
          cases hn
          rcases hahead.kept hthere with hsame | ⟨v, path', howned, hpath', hreach⟩
          · rw [hsame]
            exact .inl rfl
          · rw [howned]
            exact .inr ⟨v, path', rfl, hpath', mem_reach_made hreach uid' q⟩
      | none =>
          rw [hthere] at hn
          cases hn
          cases hthere' : t'.get? q with
          | some m =>
              obtain ⟨hmem, -, v, rfl⟩ := hahead.fresh hthere hthere'
              exact .inr ⟨v, q, rfl, hmem, mem_reach_self _ q⟩
          | none =>
              rcases huid with rfl | hmem
              · exact .inl rfl
              · exact .inr ⟨uid', q, rfl, hmem, mem_reach_self _ q⟩
    · rw [get?_made, if_neg hq] at hn ⊢
      rcases hahead.kept hn with hsame | ⟨v, path', howned, hpath', hreach⟩
      · exact .inl hsame
      · exact .inr ⟨v, path', howned, hpath', mem_reach_made hreach uid' path⟩
  · intro q m habsent hm
    have hne : q ≠ path := by
      rintro rfl
      rw [get?_made, if_pos rfl] at habsent
      exact nomatch habsent
    have hnone := habsent
    rw [get?_made, if_neg hne] at hnone hm
    obtain ⟨hmem, hmakeable, hplain⟩ := hahead.fresh hnone hm
    exact ⟨hmem, (Advances.made t uid uid path).makeable hmakeable habsent, hplain⟩
  · intro q type
    rw [mem_shape_made, mem_shape_made, hahead.listed, get?_made, get?_made]
    by_cases hq : q = path
    · subst hq
      cases hthere' : t'.get? q with
      | none => simp [hahead.absent hthere']
      | some m => simp
    · simp [hq]

section
variable (hunnested : Unnested (path :: rest)) (hahead : Ahead (path :: rest) t t')
  (hthere : t.get? path = some n)
include hunnested hahead hthere

/-- A turn reaches the same entries in both trees. -/
theorem mem_reach_iff : q ∈ t.reach path ↔ q ∈ t'.reach path := by
  have htype : t'.typeAt path = t.typeAt path := by
    obtain ⟨m, hm, htype, -⟩ := hahead.alike hthere
    rw [typeAt, typeAt, hthere, hm, Option.map_some, Option.map_some, htype]
  constructor
  · intro hreach
    exact mem_reach_of_lists hreach htype.trans fun r type _ _ hlisted =>
      hahead.listed.2 (.inl hlisted)
  · intro hreach
    refine mem_reach_of_lists hreach htype.symm.trans fun r type hwithin hne hlisted => ?_
    rcases hahead.listed.1 hlisted with hlisted | ⟨-, habsent, hthere'⟩
    · exact hlisted
    · obtain ⟨m, hm⟩ := Option.isSome_iff_exists.1 hthere'
      have hmem := (hahead.fresh habsent hm).1
      exact absurd (hunnested path List.mem_cons_self r hmem hwithin) hne

theorem isSome_of_mem_reach (hreach : q ∈ t.reach path) : ∃ n, t.get? q = some n := by
  rcases Tree.mem_reach_iff.1 hreach with rfl | ⟨-, hmet⟩
  · exact ⟨n, hthere⟩
  · exact Option.isSome_iff_exists.1 hmet.isSome

/-- All that a turn reaches may be given away in both trees or in neither. -/
theorem givable_iff :
    (∀ q ∈ t.reach path, t.Givable q) ↔ ∀ q ∈ t'.reach path, t'.Givable q := by
  refine forall_congr' fun q => ?_
  rw [← hahead.mem_reach_iff hunnested hthere]
  refine imp_congr_right fun hreach => ?_
  obtain ⟨n', hn'⟩ := hahead.isSome_of_mem_reach hunnested hthere hreach
  obtain ⟨m', hm', -, hdenies⟩ := hahead.alike hn'
  constructor
  · rintro ⟨n'', hn'', hallowed⟩
    rw [hn'] at hn''
    cases hn''
    exact ⟨m', hm', hdenies ▸ hallowed⟩
  · rintro ⟨m'', hm'', hallowed⟩
    rw [hm'] at hm''
    cases hm''
    exact ⟨n', hn', hdenies ▸ hallowed⟩

/-- Once all that the turn of a path reaches was given away in both trees, the other paths cover the
difference. -/
theorem giveAll (uid : Int) :
    Ahead rest (t.giveAll uid (t.reach path)) (t'.giveAll uid (t'.reach path)) := by
  have hreach : ∀ q, q ∈ t.reach path ↔ q ∈ t'.reach path := fun q =>
    hahead.mem_reach_iff hunnested hthere
  have hstill : ∀ {q}, (t.giveAll uid (t.reach path)).get? q = none ↔ t.get? q = none := by
    intro q
    rw [← Option.not_isSome_iff_eq_none, ← Option.not_isSome_iff_eq_none, isSome_giveAll]
  constructor
  · intro q n' hn'
    rw [get?_giveAll] at hn' ⊢
    by_cases hq : q ∈ t.reach path
    · rw [if_pos hq] at hn'
      rw [if_pos ((hreach q).1 hq)]
      obtain ⟨n₀, hn₀, rfl⟩ := Option.map_eq_some_iff.1 hn'
      rcases hahead.kept hn₀ with hsame | ⟨v, -, howned, -, -⟩
      · rw [hsame]
        exact .inl rfl
      · rw [howned]
        exact .inl rfl
    · rw [if_neg hq] at hn'
      rw [if_neg fun hq' => hq ((hreach q).2 hq')]
      rcases hahead.kept hn' with hsame | ⟨v, path', howned, hpath', hreach'⟩
      · exact .inl hsame
      · rcases List.mem_cons.1 hpath' with rfl | hpath'
        · exact absurd ((hreach q).2 hreach') hq
        · exact .inr ⟨v, path', howned, hpath', reach_giveAll uid path' _ t' ▸ hreach'⟩
  · intro q m habsent hm
    have hnone := hstill.1 habsent
    obtain ⟨m', v, hm', rfl⟩ := exists_of_giveAll hm
    obtain ⟨hmem, hmakeable, _, rfl⟩ := hahead.fresh hnone hm'
    refine ⟨?_, (Advances.giveAll t uid _).makeable hmakeable habsent, v, rfl⟩
    rcases List.mem_cons.1 hmem with rfl | hmem
    · rw [hnone] at hthere
      exact nomatch hthere
    · exact hmem
  · intro q type
    rw [shape_giveAll, shape_giveAll, hahead.listed, hstill, isSome_giveAll]

end

end Ahead

end Tree

/-! ## Turns -/

namespace CgroupProvisioner

variable {p : CgroupProvisioner} {owner : String}

/-- A step leaves a tree ahead of `t` that was ahead of it. -/
def KeepsAhead (paths : List Path) (t : Tree) (h h' : Host) : Prop :=
  t.Ahead paths h.tree → t.Ahead paths h'.tree

instance (paths : List Path) (t : Tree) : IsPreorder Host (KeepsAhead paths t) where
  refl _ := id
  trans _ _ _ hfirst hsecond := fun hahead => hsecond (hfirst hahead)

/-- The turn of a path keeps the tree ahead, however it ends. -/
theorem keepsAhead_provisionOne (hdirect : p.filesystem = .direct) {paths : List Path}
    (hunnested : Unnested paths) {path : Path} (hpath : path ∈ paths) (t : Tree) (owner : String) :
    Leads (KeepsAhead paths t) (p.provisionOne owner path) := by
  intro h hahead
  have hmade : h.tree.Open path → t.Ahead paths (h.tree.made h.euid path) := fun hopen =>
    hahead.made_right hunnested hpath hopen h.euid
  have hends := turnEnds_provisionOne hdirect owner path h
  cases hone : p.provisionOne owner path h with
  | error e h' =>
      rw [hone] at hends
      rw [hostAfter_of_error hone]
      cases hends with
      | closed hclosed htree => exact htree ▸ hahead
      | numberless hopen hnumber htree => exact htree ▸ hmade hopen
      | refused hopen hnumber hnot hgiven htree =>
          exact htree ▸ (hmade hopen).giveAll_right hpath (fun q hq => hgiven.subset hq) _
  | ok u h' =>
      rw [hone] at hends
      rw [hostAfter_of_ok hone]
      cases hends with
      | done hopen hnumber hall htree =>
          exact htree ▸ (hmade hopen).giveAll_right hpath (fun q hq => hq) _

theorem keepsAhead_provisionEach (hdirect : p.filesystem = .direct) {paths : List Path}
    (hunnested : Unnested paths) (t : Tree) (owner : String) :
    ∀ {turns : List Path}, turns ⊆ paths → Leads (KeepsAhead paths t) (p.provisionEach owner turns)
  | [], _ => leads_pure ()
  | path :: rest, hsub => by
      have hone := keepsAhead_provisionOne hdirect hunnested (hsub List.mem_cons_self) t owner
      exact hone.bind fun _ => keepsAhead_provisionEach hdirect hunnested t owner
        fun q hq => hsub (List.mem_cons_of_mem _ hq)

/-- A turn is done exactly when its directory can be had, its owner has a number, and all that it
reaches may be given away. -/
theorem provisionOne_returns_iff (hdirect : p.filesystem = .direct) {path : Path} {h : Host} :
    (∃ h', p.provisionOne owner path h = .ok () h') ↔
      h.tree.Open path ∧ (∃ uid, h.passwd.lookup owner = some uid) ∧
        ∀ q ∈ (h.tree.made h.euid path).reach path, (h.tree.made h.euid path).Givable q := by
  have hends := turnEnds_provisionOne hdirect owner path h
  cases hone : p.provisionOne owner path h with
  | error e h' =>
      rw [hone] at hends
      constructor
      · rintro ⟨_, hok⟩
        exact nomatch hok
      · rintro ⟨hopen, ⟨uid, hnumber⟩, hall⟩
        cases hends with
        | closed hclosed htree => exact absurd hopen hclosed
        | numberless _ hnone htree =>
            rw [hnumber] at hnone
            exact nomatch hnone
        | refused _ _ hnot hgiven htree => exact absurd hall hnot
  | ok u h' =>
      rw [hone] at hends
      cases hends with
      | done hopen hnumber hall htree =>
          exact ⟨fun _ => ⟨hopen, ⟨_, hnumber⟩, hall⟩, fun _ => ⟨h', rfl⟩⟩

/-- The tree that a turn leaves when it is done. -/
theorem tree_of_provisionOne (hdirect : p.filesystem = .direct) {path : Path} {h h' : Host}
    (hone : p.provisionOne owner path h = .ok () h') :
    ∃ uid, h.passwd.lookup owner = some uid ∧
      h'.tree = (h.tree.made h.euid path).giveAll uid ((h.tree.made h.euid path).reach path) := by
  have hends := turnEnds_provisionOne hdirect owner path h
  rw [hone] at hends
  cases hends with
  | done hopen hnumber hall htree => exact ⟨_, hnumber, htree⟩

section
variable {path : Path} {rest : List Path} {h g : Host}

/-- The turn of a path is done on both trees or on neither. -/
theorem provisionOne_returns_iff_ahead (hdirect : p.filesystem = .direct)
    (hunnested : Unnested (path :: rest)) (hahead : h.tree.Ahead (path :: rest) g.tree)
    (hpasswd : g.passwd = h.passwd) :
    (∃ h', p.provisionOne owner path h = .ok () h') ↔
      ∃ g', p.provisionOne owner path g = .ok () g' := by
  rw [provisionOne_returns_iff hdirect, provisionOne_returns_iff hdirect, hpasswd,
    ← hahead.open_iff hunnested List.mem_cons_self]
  refine and_congr_right fun hopen => and_congr_right fun _ => ?_
  obtain ⟨n, hthere, -⟩ := hopen.seen_made h.euid
  have hmade : (h.tree.made h.euid path).Ahead (path :: rest) (g.tree.made g.euid path) :=
    hahead.made (.inr List.mem_cons_self)
  exact hmade.givable_iff hunnested hthere

/-- Once the turn of a path is done on both trees, the other paths cover the difference. -/
theorem ahead_of_provisionOne (hdirect : p.filesystem = .direct)
    (hunnested : Unnested (path :: rest)) (hahead : h.tree.Ahead (path :: rest) g.tree)
    (hpasswd : g.passwd = h.passwd) {h' g' : Host}
    (hone : p.provisionOne owner path h = .ok () h')
    (hone' : p.provisionOne owner path g = .ok () g') : h'.tree.Ahead rest g'.tree := by
  obtain ⟨uid, hnumber, htree⟩ := tree_of_provisionOne hdirect hone
  obtain ⟨uid', hnumber', htree'⟩ := tree_of_provisionOne hdirect hone'
  obtain rfl : uid = uid' := by
    rw [hpasswd, hnumber] at hnumber'
    exact Option.some.inj hnumber'
  obtain ⟨n, hthere, -⟩ := ((provisionOne_returns_iff hdirect).1 ⟨h', hone⟩).1.seen_made h.euid
  rw [htree, htree']
  exact (hahead.made (.inr List.mem_cons_self)).giveAll hunnested hthere uid

end

/-- The turns of all paths are done on both trees or on neither, and then both hold the same
entries. -/
theorem provisionEach_ahead (hdirect : p.filesystem = .direct) :
    ∀ {paths : List Path} {h g : Host}, Unnested paths → h.tree.Ahead paths g.tree →
      g.passwd = h.passwd →
      ((∃ h', p.provisionEach owner paths h = .ok () h') ↔
        ∃ g', p.provisionEach owner paths g = .ok () g') ∧
      ∀ {h' g'}, p.provisionEach owner paths h = .ok () h' →
        p.provisionEach owner paths g = .ok () g' → ∀ q, g'.tree.get? q = h'.tree.get? q := by
  intro paths
  induction paths with
  | nil =>
      intro h g _ hahead _
      refine ⟨⟨fun _ => ⟨g, rfl⟩, fun _ => ⟨h, rfl⟩⟩, fun hdone hdone' q => ?_⟩
      cases hdone
      cases hdone'
      exact hahead.get?_eq q
  | cons path rest ih =>
      intro h g hunnested hahead hpasswd
      have hboth : (∃ h₁, p.provisionOne owner path h = .ok () h₁) ↔
          ∃ g₁, p.provisionOne owner path g = .ok () g₁ :=
        provisionOne_returns_iff_ahead hdirect hunnested hahead hpasswd
      have hthen : ∀ {h₁ g₁}, p.provisionOne owner path h = .ok () h₁ →
          p.provisionOne owner path g = .ok () g₁ →
          h₁.tree.Ahead rest g₁.tree ∧ g₁.passwd = h₁.passwd := fun hone hone' =>
        ⟨ahead_of_provisionOne hdirect hunnested hahead hpasswd hone hone',
          ((passwd_provisionOne p owner path).of_ok hone').trans
            (hpasswd.trans ((passwd_provisionOne p owner path).of_ok hone).symm)⟩
      constructor
      · constructor
        · rintro ⟨h', hdone⟩
          obtain ⟨u, h₁, hone, hrest⟩ := bind_apply_eq_ok_iff.1 hdone
          obtain ⟨g₁, hone'⟩ := hboth.1 ⟨h₁, hone⟩
          obtain ⟨hahead', hpasswd'⟩ := hthen hone hone'
          obtain ⟨g', hrest'⟩ := (ih hunnested.tail hahead' hpasswd').1.1 ⟨h', hrest⟩
          exact ⟨g', bind_apply_eq_ok_iff.2 ⟨u, g₁, hone', hrest'⟩⟩
        · rintro ⟨g', hdone⟩
          obtain ⟨u, g₁, hone', hrest'⟩ := bind_apply_eq_ok_iff.1 hdone
          obtain ⟨h₁, hone⟩ := hboth.2 ⟨g₁, hone'⟩
          obtain ⟨hahead', hpasswd'⟩ := hthen hone hone'
          obtain ⟨h', hrest⟩ := (ih hunnested.tail hahead' hpasswd').1.2 ⟨g', hrest'⟩
          exact ⟨h', bind_apply_eq_ok_iff.2 ⟨u, h₁, hone, hrest⟩⟩
      · intro h' g' hdone hdone'
        obtain ⟨u, h₁, hone, hrest⟩ := bind_apply_eq_ok_iff.1 hdone
        obtain ⟨u', g₁, hone', hrest'⟩ := bind_apply_eq_ok_iff.1 hdone'
        obtain ⟨hahead', hpasswd'⟩ := hthen hone hone'
        exact (ih hunnested.tail hahead' hpasswd').2 hrest hrest'

end CgroupProvisioner

end Provisioning
