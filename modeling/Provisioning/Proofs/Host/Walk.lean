/-
# `Provisioning.Proofs.Host.Walk` — what a walk meets, and giving away what it meets

A walk goes down by depth, with the size of the tree as its limit.  What it
meets is said here without a limit: the entries that the path holds, and what
is met below those of them that are directories (`Tree.Met`).  An entry whose
holder is missing, or is a file, is met by no walk.

A walk sees of the tree only which entries are listed, and of which type
(`Tree.shape`).  Giving an entry to a user leaves that alone, so the walk of a
tree does not change while its entries are given away.

    t.give uid q        the tree in which the entry at `q` is the user's
    t.giveAll uid qs    the same for each of a list
    t.reach p           a path and all that a walk from it meets

**Stated here.**  The walk meets exactly what is met (`mem_walk_iff`): the limit
cuts nothing off.
-/
import Mathlib.Data.List.Perm.Subperm
import Provisioning.Host.Tree
import Provisioning.Proofs.Cgroup.Paths

namespace Provisioning

/-! ## Rows -/

namespace Table

variable {α β : Type} [DecidableEq α] {t : Table α β} {k : α} {v : β}

/-- Putting under a known key changes its first row, and no other. -/
theorem rows_put_of_some (hk : t.get? k = some v) (w : β) :
    ∃ before after, t.rows = before ++ (k, v) :: after ∧
      (t.put k w).rows = before ++ (k, w) :: after := by
  revert hk
  unfold get? put
  dsimp only
  induction t.rows with
  | nil =>
      intro hk
      exact nomatch hk
  | cons r rs ih =>
      obtain ⟨k', v'⟩ := r
      intro hk
      by_cases hsame : k' = k
      · subst hsame
        rw [lookup, if_pos rfl] at hk
        cases hk
        exact ⟨[], rs, rfl, by rw [putIn, if_pos rfl]; rfl⟩
      · rw [lookup, if_neg hsame] at hk
        obtain ⟨before, after, hrows, hput⟩ := ih hk
        refine ⟨(k', v') :: before, after, by rw [hrows]; rfl, ?_⟩
        rw [putIn, if_neg hsame, hput]
        rfl

/-- Putting under a new key adds a row at the end. -/
theorem rows_put_of_none (hk : t.get? k = none) (w : β) :
    (t.put k w).rows = t.rows ++ [(k, w)] := by
  revert hk
  unfold get? put
  dsimp only
  induction t.rows with
  | nil =>
      intro _
      rfl
  | cons r rs ih =>
      obtain ⟨k', v'⟩ := r
      intro hk
      by_cases hsame : k' = k
      · rw [lookup, if_pos hsame] at hk
        cases hk
      · rw [lookup, if_neg hsame] at hk
        rw [putIn, if_neg hsame, ih hk]
        rfl

end Table

/-! ## What a path holds -/

namespace Path

variable {p q : Path}

/-- What a path holds has one name more than the path. -/
theorem length_of_parent (hparent : q.parent = p) (hne : q ≠ p) :
    q.names.length = p.names.length + 1 := by
  subst hparent
  have hnamed : q.names ≠ [] := by
    intro hnil
    refine hne (Path.ext rfl ?_)
    show q.names = q.names.dropLast
    rw [hnil]
    rfl
  have hpos : 0 < q.names.length := List.length_pos_iff.2 hnamed
  show q.names.length = q.names.dropLast.length + 1
  rw [List.length_dropLast]
  omega

/-- A path lies within the one that holds it. -/
theorem isWithin_parent (q : Path) : q.isWithin q.parent = true :=
  isWithin_iff.2 ⟨rfl, q.names.drop (q.names.length - 1), by
    show q.names = q.names.dropLast ++ _
    rw [List.dropLast_eq_take, List.take_append_drop]⟩

theorem isWithin_trans {r : Path} (hr : r.isWithin q = true) (hq : q.isWithin p = true) :
    r.isWithin p = true := by
  obtain ⟨hroot, below, hnames⟩ := isWithin_iff.1 hr
  obtain ⟨hroot', below', hnames'⟩ := isWithin_iff.1 hq
  refine isWithin_iff.2 ⟨hroot.trans hroot', below' ++ below, ?_⟩
  rw [hnames, hnames', List.append_assoc]

end Path

/-! ## The shape of a tree -/

/-- An entry that belongs to a user. -/
def Node.ownedBy (n : Node) (uid : Int) : Node := { n with uid }

namespace Tree

variable {t t' : Tree} {p q d : Path} {n m : Node}

/-- The entries that a tree lists, and of which type they are. -/
def shape (t : Tree) : List (Path × EntryType) := t.rows.map fun e => (e.1, e.2.type)

theorem isSome_of_mem_shape {type : EntryType} (hlisted : (q, type) ∈ t.shape) :
    (t.get? q).isSome = true := by
  rw [← Table.mem_keys_iff]
  obtain ⟨e, he, hpair⟩ := List.mem_map.1 hlisted
  cases hpair
  exact List.mem_map_of_mem he

theorem shape_put_of_some (hthere : t.get? q = some n) (htype : m.type = n.type) :
    Tree.shape (t.put q m) = t.shape := by
  obtain ⟨before, after, hrows, hput⟩ := Table.rows_put_of_some hthere m
  rw [shape, shape, hrows, hput]
  simp [htype]

theorem shape_put_of_none (habsent : t.get? q = none) (m : Node) :
    Tree.shape (t.put q m) = t.shape ++ [(q, m.type)] := by
  rw [shape, shape, Table.rows_put_of_none habsent]
  simp

/-- The type of an entry, if there is one. -/
def typeAt (t : Tree) (q : Path) : Option EntryType := (t.get? q).map Node.type

/-! ## What a walk meets -/

/-- `q` is met on a walk from `p`, if that is a directory. -/
inductive Met (t : Tree) : Path → Path → Prop where
  /-- The path holds it. -/
  | child {p q : Path} {type : EntryType} (hlisted : (q, type) ∈ t.shape) (hparent : q.parent = p)
      (hne : q ≠ p) : Met t p q
  /-- It is met below a directory that the path holds. -/
  | deeper {p d q : Path} (hlisted : (d, EntryType.directory) ∈ t.shape) (hparent : d.parent = p)
      (hne : d ≠ p) (hmet : Met t d q) : Met t p q

theorem mem_children {type : EntryType} :
    q ∈ t.children type p ↔ (q, type) ∈ t.shape ∧ q.parent = p ∧ q ≠ p := by
  rw [children, List.mem_mergeSort, shape]
  simp only [List.mem_map, List.mem_filter, Bool.and_eq_true, decide_eq_true_eq, ne_eq]
  constructor
  · rintro ⟨e, ⟨he, ⟨hparent, hne⟩, htype⟩, rfl⟩
    exact ⟨⟨e, he, by rw [htype]⟩, hparent, hne⟩
  · rintro ⟨⟨e, he, hpair⟩, hparent, hne⟩
    cases hpair
    exact ⟨e, ⟨he, ⟨hparent, hne⟩, rfl⟩, rfl⟩

theorem Met.isWithin (hmet : t.Met p q) :
    q.isWithin p = true ∧ p.names.length < q.names.length := by
  induction hmet with
  | @child p q type hlisted hparent hne =>
      refine ⟨hparent ▸ q.isWithin_parent, ?_⟩
      have hlength := Path.length_of_parent hparent hne
      omega
  | @deeper p d q hlisted hparent hne hmet ih =>
      refine ⟨Path.isWithin_trans ih.1 (hparent ▸ d.isWithin_parent), ?_⟩
      have hlength := Path.length_of_parent hparent hne
      have hbelow := ih.2
      omega

theorem Met.isSome (hmet : t.Met p q) : (t.get? q).isSome = true := by
  induction hmet with
  | child hlisted hparent hne => exact isSome_of_mem_shape hlisted
  | deeper hlisted hparent hne hmet ih => exact ih

/-- What is met in one tree is met in another that lists all that lies within the path. -/
theorem Met.mono (hmet : t.Met p q)
    (hlists : ∀ r type, r.isWithin p = true → r ≠ p → (r, type) ∈ t.shape → (r, type) ∈ t'.shape) :
    t'.Met p q := by
  induction hmet with
  | @child p q type hlisted hparent hne =>
      exact .child (hlists q type (hparent ▸ q.isWithin_parent) hne hlisted) hparent hne
  | @deeper p d q hlisted hparent hne hmet ih =>
      have hd : d.isWithin p = true := hparent ▸ d.isWithin_parent
      refine .deeper (hlists d _ hd hne hlisted) hparent hne (ih fun r type hr hrd => ?_)
      refine hlists r type (Path.isWithin_trans hr hd) ?_
      rintro rfl
      -- a path within what it holds itself
      obtain ⟨-, below, hnames⟩ := Path.isWithin_iff.1 hr
      have hlength := Path.length_of_parent hparent hne
      have hsum := congrArg List.length hnames
      rw [List.length_append] at hsum
      omega

/-! ## The limit cuts nothing off -/

theorem met_of_mem_below : ∀ {depth : Nat} {p : Path}, q ∈ t.below depth p → t.Met p q := by
  intro depth
  induction depth with
  | zero =>
      intro p hmem
      exact absurd hmem List.not_mem_nil
  | succ depth ih =>
      intro p hmem
      simp only [below, List.mem_append, List.mem_flatMap] at hmem
      rcases hmem with (hdir | hfile) | ⟨d, hd, hdeep⟩
      · obtain ⟨hlisted, hparent, hne⟩ := mem_children.1 hdir
        exact .child hlisted hparent hne
      · obtain ⟨hlisted, hparent, hne⟩ := mem_children.1 hfile
        exact .child hlisted hparent hne
      · obtain ⟨hlisted, hparent, hne⟩ := mem_children.1 hd
        exact .deeper hlisted hparent hne (ih hdeep)

theorem Met.mem_below (hmet : t.Met p q) :
    ∀ {depth : Nat}, q.names.length ≤ p.names.length + depth → q ∈ t.below depth p := by
  induction hmet with
  | @child p q type hlisted hparent hne =>
      intro depth hdepth
      have hlength := Path.length_of_parent hparent hne
      cases depth with
      | zero => omega
      | succ depth =>
          have hmem : q ∈ t.children type p := mem_children.2 ⟨hlisted, hparent, hne⟩
          simp only [Tree.below, List.mem_append]
          cases type with
          | directory => exact .inl (.inl hmem)
          | file => exact .inl (.inr hmem)
  | @deeper p d q hlisted hparent hne hmet ih =>
      intro depth hdepth
      have hlength := Path.length_of_parent hparent hne
      have hbelow := hmet.isWithin.2
      cases depth with
      | zero => omega
      | succ depth =>
          simp only [Tree.below, List.mem_append, List.mem_flatMap]
          exact .inr ⟨d, mem_children.2 ⟨hlisted, hparent, hne⟩, ih (by omega)⟩

/-- On the way to what is met there is an entry of each length. -/
theorem Met.exists_length (hmet : t.Met p q) :
    ∀ i, p.names.length < i → i ≤ q.names.length →
      i ∈ t.rows.map fun e => e.1.names.length := by
  have hlists : ∀ {r : Path} {type : EntryType}, (r, type) ∈ t.shape →
      r.names.length ∈ t.rows.map fun e => e.1.names.length := by
    intro r type hlisted
    obtain ⟨e, he, hpair⟩ := List.mem_map.1 hlisted
    cases hpair
    exact List.mem_map_of_mem (f := fun e : Path × Node => e.1.names.length) he
  induction hmet with
  | @child p q type hlisted hparent hne =>
      intro i hlow hhigh
      have hlength := Path.length_of_parent hparent hne
      obtain rfl : i = q.names.length := by omega
      exact hlists hlisted
  | @deeper p d q hlisted hparent hne hmet ih =>
      intro i hlow hhigh
      have hlength := Path.length_of_parent hparent hne
      by_cases hd : i = d.names.length
      · subst hd
        exact hlists hlisted
      · exact ih i (by omega) hhigh

/-- A chain of entries is no longer than the tree is large. -/
theorem Met.length_le (hmet : t.Met p q) :
    q.names.length ≤ p.names.length + t.rows.length := by
  have hsub : List.range' (p.names.length + 1) (q.names.length - p.names.length) ⊆
      t.rows.map fun e => e.1.names.length := by
    intro i hi
    rw [List.mem_range'_1] at hi
    exact hmet.exists_length i (by omega) (by omega)
  have hle := (List.subperm_of_subset List.nodup_range' hsub).length_le
  rw [List.length_range', List.length_map] at hle
  omega

/-- A walk meets exactly what is met below a directory. -/
theorem mem_walk_iff : q ∈ t.walk p ↔ t.typeAt p = some .directory ∧ t.Met p q := by
  unfold walk typeAt
  cases hthere : t.get? p with
  | none => simp
  | some n =>
      obtain ⟨type, uid, denies⟩ := n
      cases type with
      | file => simp
      | directory =>
          simp only [Option.map_some, true_and]
          exact ⟨met_of_mem_below, fun hmet => hmet.mem_below hmet.length_le⟩

/-! ## Trees of one shape -/

theorem children_congr (hshape : t'.shape = t.shape) (type : EntryType) (p : Path) :
    t'.children type p = t.children type p := by
  have hchildren : ∀ t : Tree, t.children type p =
      ((t.shape.filter fun e => e.1.parent = p && e.1 ≠ p && e.2 = type).map Prod.fst).mergeSort
        fun a b => decide (a.name ≤ b.name) := by
    intro t
    rw [children, shape, List.filter_map, List.map_map]
    rfl
  rw [hchildren t, hchildren t', hshape]

theorem below_congr (hshape : t'.shape = t.shape) :
    ∀ (depth : Nat) (p : Path), t'.below depth p = t.below depth p := by
  intro depth
  induction depth with
  | zero =>
      intro p
      rfl
  | succ depth ih =>
      intro p
      rw [below, below, children_congr hshape, children_congr hshape, funext ih]

/-- A walk is decided by the shape of the tree and by what it starts at. -/
theorem walk_congr (hshape : t'.shape = t.shape) (htype : t'.typeAt p = t.typeAt p) :
    t'.walk p = t.walk p := by
  have hlength : t'.rows.length = t.rows.length := by
    have hsame := congrArg List.length hshape
    rwa [shape, shape, List.length_map, List.length_map] at hsame
  have hwalk : ∀ t : Tree, t.walk p =
      if t.typeAt p = some .directory then t.below t.rows.length p else [] := by
    intro t
    unfold walk typeAt
    cases t.get? p with
    | none => rfl
    | some n =>
        obtain ⟨type, uid, denies⟩ := n
        cases type <;> rfl
  rw [hwalk t, hwalk t', htype, hlength, below_congr hshape]

/-! ## Giving entries away -/

/-- The tree in which the entry at a path belongs to a user. -/
def give (t : Tree) (uid : Int) (q : Path) : Tree :=
  match t.get? q with
  | none => t
  | some n => t.put q (n.ownedBy uid)

/-- The tree in which the entries at the paths of a list belong to a user. -/
def giveAll (t : Tree) (uid : Int) (qs : List Path) : Tree := qs.foldl (fun t q => t.give uid q) t

/-- A path and everything that a walk from it meets. -/
def reach (t : Tree) (p : Path) : List Path := p :: t.walk p

theorem mem_reach_self (t : Tree) (p : Path) : p ∈ t.reach p := List.mem_cons_self

section
variable (uid : Int)

theorem get?_give (t : Tree) (q r : Path) :
    (t.give uid q).get? r = if r = q then (t.get? r).map (·.ownedBy uid) else t.get? r := by
  unfold give
  by_cases hr : r = q
  · subst hr
    rw [if_pos rfl]
    cases hthere : t.get? r with
    | none => exact hthere
    | some n => exact Table.get?_put_self _ _ _
  · rw [if_neg hr]
    cases t.get? q with
    | none => rfl
    | some n => exact Table.get?_put_of_ne _ (Ne.symm hr) _

theorem get?_giveAll (r : Path) : ∀ (qs : List Path) (t : Tree),
    (t.giveAll uid qs).get? r = if r ∈ qs then (t.get? r).map (·.ownedBy uid) else t.get? r := by
  intro qs
  induction qs with
  | nil =>
      intro t
      rfl
  | cons q qs ih =>
      intro t
      show ((t.give uid q).giveAll uid qs).get? r = _
      rw [ih, get?_give]
      by_cases hq : r = q
      · subst hq
        rw [if_pos rfl, if_pos List.mem_cons_self, Option.map_map, ite_eq_right_iff.2]
        intro _
        rfl
      · simp [hq]

theorem shape_give (t : Tree) (q : Path) : (t.give uid q).shape = t.shape := by
  unfold give
  cases hthere : t.get? q with
  | none => rfl
  | some n => exact shape_put_of_some hthere rfl

theorem shape_giveAll : ∀ (qs : List Path) (t : Tree), (t.giveAll uid qs).shape = t.shape := by
  intro qs
  induction qs with
  | nil =>
      intro t
      rfl
  | cons q qs ih =>
      intro t
      exact (ih (t.give uid q)).trans (t.shape_give uid q)

theorem typeAt_give (t : Tree) (q r : Path) : (t.give uid q).typeAt r = t.typeAt r := by
  unfold typeAt
  rw [get?_give]
  split
  · rw [Option.map_map]
    rfl
  · rfl

/-- Giving entries away changes no walk. -/
theorem walk_give (t : Tree) (q p : Path) : (t.give uid q).walk p = t.walk p :=
  walk_congr (t.shape_give uid q) (t.typeAt_give uid q p)

end

end Tree

end Provisioning
