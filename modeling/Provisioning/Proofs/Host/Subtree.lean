/-
# `Provisioning.Proofs.Host.Subtree` — a walk that meets a whole subtree, each entry once

A walk goes from a directory to what it holds.  An entry that no directory
holds is met by no walk, though its path lies within the path that the walk
started from.  In a tree that lists every entry once, and below a path none
without a directory that holds it (`Tree.WellHeld`), nothing is left out and
nothing is met twice.

    /cg/sp          directory      met from /cg/sp
    /cg/sp/a        directory      met
    /cg/sp/a/f      file           met
    /cg/sp2         directory      not met: the name goes on, the path does not

**Stated here.**  The walk of such a tree meets what lies within the path and
nothing else (`WellHeld.mem_reach_iff`), and meets it once
(`WellHeld.nodup_reach`).
-/
import Mathlib.Data.List.Nodup
import Provisioning.Proofs.Host.Walk

namespace Provisioning

/-! ## One row for a key -/

namespace Table

variable {α β : Type} [DecidableEq α] {t : Table α β}

/-- Putting keeps the keys apart: a known key keeps its row, a new one gets a row of its own. -/
theorem nodup_keys_put (hnodup : t.keys.Nodup) (k : α) (v : β) : (t.put k v).keys.Nodup := by
  cases hk : t.get? k with
  | some w =>
      obtain ⟨before, after, hrows, hput⟩ := rows_put_of_some hk v
      have hkeys : (t.put k v).keys = t.keys := by simp [keys, hrows, hput]
      rwa [hkeys]
  | none =>
      have hnew : k ∉ t.keys := by simp [mem_keys_iff, hk]
      have hkeys : (t.put k v).keys = t.keys ++ [k] := by simp [keys, rows_put_of_none hk]
      rw [hkeys]
      exact List.nodup_append.2 ⟨hnodup, List.nodup_singleton k, fun a ha b hb => by
        rintro rfl
        exact hnew (List.mem_singleton.1 hb ▸ ha)⟩

/-- A table that was made by putting lists every key once. -/
theorem nodup_keys_ofRows (rows : List (α × β)) : (ofRows rows).keys.Nodup := by
  have hfold : ∀ (rows : List (α × β)) (t : Table α β), t.keys.Nodup →
      (rows.foldl (fun t (r : α × β) => t.put r.1 r.2) t).keys.Nodup := by
    intro rows
    induction rows with
    | nil => exact fun t hnodup => hnodup
    | cons r rows ih => exact fun t hnodup => ih _ (nodup_keys_put hnodup r.1 r.2)
  exact hfold rows {} List.nodup_nil

end Table

/-! ## Paths within one another -/

namespace Path

variable {p q r : Path}

theorem isWithin_iff_eq_or_isBelow : q.isWithin p = true ↔ q = p ∨ q.isBelow p = true := by
  constructor
  · intro hwithin
    obtain ⟨hroot, below, hnames⟩ := isWithin_iff.1 hwithin
    by_cases hbelow : below = []
    · exact .inl (Path.ext hroot (by rw [hnames, hbelow, List.append_nil]))
    · exact .inr (isBelow_iff.2 ⟨hroot, below, hbelow, hnames⟩)
  · rintro (rfl | hbelow)
    · exact q.isWithin_self
    · obtain ⟨hroot, below, -, hnames⟩ := isBelow_iff.1 hbelow
      exact isWithin_iff.2 ⟨hroot, below, hnames⟩

/-- What lies below a path is held by the path, or by something below it. -/
theorem parent_of_isBelow (hbelow : q.isBelow p = true) :
    q ≠ q.parent ∧ (q.parent = p ∨ q.parent.isBelow p = true) := by
  obtain ⟨hroot, below, hne, hnames⟩ := isBelow_iff.1 hbelow
  have hparent : q.parent.names = p.names ++ below.dropLast := by
    show q.names.dropLast = _
    rw [hnames, List.dropLast_append_of_ne_nil hne]
  constructor
  · intro hself
    have hlength := congrArg (fun r : Path => r.names.length) hself
    have hpos := List.length_pos_iff.2 hne
    simp only [hparent, hnames, List.length_append, List.length_dropLast] at hlength
    omega
  · exact isWithin_iff_eq_or_isBelow.1 (isWithin_iff.2 ⟨hroot, below.dropLast, hparent⟩)

/-- Two paths of one length that hold the same are the same. -/
theorem eq_of_isWithin (hp : r.isWithin p = true) (hq : r.isWithin q = true)
    (hlength : p.names.length = q.names.length) : p = q := by
  obtain ⟨hroot, below, hnames⟩ := isWithin_iff.1 hp
  obtain ⟨hroot', below', hnames'⟩ := isWithin_iff.1 hq
  exact Path.ext (hroot.symm.trans hroot')
    (List.append_inj_left (hnames.symm.trans hnames') hlength)

/-- What a path within `start` is spelled as on the way from there names that path. -/
theorem ofString_spelledFrom {start : Path} (hwithin : p.isWithin start = true) :
    ofString (p.spelledFrom start) = p := by
  unfold spelledFrom
  split
  · rename_i hhand
    -- from the directory at hand a name more is spelled, `.`, and it is forgotten
    have hroot : p.root = .relative := (isWithin_iff.1 hwithin).1.trans hhand.1
    have hforget : (ofString ("./" ++ p.toString)).names = (ofString p.toString).names := by
      simp [ofString, namesOf, Text.pieces, IsPathName]
    refine Path.ext ?_ (hforget.trans (congrArg Path.names p.ofString_toString))
    rw [hroot]
    simp [ofString, PathRoot.ofChars]
  · exact p.ofString_toString

end Path

/-! ## Trees that a walk does not lose -/

namespace Tree

variable {t : Tree} {p q d : Path} {type : EntryType}

/-- The tree lists each entry once, and below a path none without a directory that holds it. -/
structure WellHeld (t : Tree) (p : Path) : Prop where
  nodup : t.keys.Nodup
  held : ∀ q ∈ t.keys, q.isBelow p = true → t.typeAt q.parent = some .directory

instance (t : Tree) (p : Path) : Decidable (t.WellHeld p) :=
  decidable_of_iff
    (t.keys.Nodup ∧ ∀ q ∈ t.keys, q.isBelow p = true → t.typeAt q.parent = some .directory)
    ⟨fun h => ⟨h.1, h.2⟩, fun h => ⟨h.nodup, h.held⟩⟩

/-- What has a type is listed with it. -/
theorem mem_shape_of_typeAt (htype : t.typeAt q = some type) : (q, type) ∈ t.shape := by
  obtain ⟨n, hthere, rfl⟩ := Option.map_eq_some_iff.1 htype
  obtain ⟨before, after, hrows, -⟩ := Table.rows_put_of_some hthere n
  exact List.mem_map.2 ⟨(q, n), by simp [hrows], rfl⟩

/-- What a directory holds that was met is met as well. -/
theorem Met.extend (hmet : t.Met p d) (hdir : (d, EntryType.directory) ∈ t.shape)
    (hlisted : (q, type) ∈ t.shape) (hparent : q.parent = d) (hne : q ≠ d) : t.Met p q := by
  induction hmet with
  | @child p d _ _ hd hdne => exact .deeper hdir hd hdne (.child hlisted hparent hne)
  | @deeper p c d hc hcparent hcne _ ih => exact .deeper hc hcparent hcne (ih hdir hparent hne)

namespace WellHeld

/-- What is listed below a path is met on the walk from it. -/
theorem mem_walk (hheld : t.WellHeld p) (hq : q ∈ t.keys) (hbelow : q.isBelow p = true) :
    q ∈ t.walk p := by
  -- along the directories that hold one another, from the path down
  induction hlength : q.names.length generalizing q with
  | zero =>
      obtain ⟨-, below, hne, hnames⟩ := Path.isBelow_iff.1 hbelow
      have hpos := List.length_pos_iff.2 hne
      rw [hnames, List.length_append] at hlength
      omega
  | succ k ih =>
      obtain ⟨hne, hparent⟩ := Path.parent_of_isBelow hbelow
      have hdir : t.typeAt q.parent = some .directory := hheld.held q hq hbelow
      obtain ⟨n, hthere⟩ := Option.isSome_iff_exists.1 ((Table.mem_keys_iff t q).1 hq)
      have hlisted : (q, n.type) ∈ t.shape := mem_shape_of_typeAt (by rw [typeAt, hthere]; rfl)
      rcases hparent with hchild | hdeep
      · exact mem_walk_iff.2 ⟨hchild ▸ hdir, .child hlisted hchild (hchild ▸ hne)⟩
      · have hkey : q.parent ∈ t.keys := by
          rw [Table.mem_keys_iff]
          exact isSome_of_mem_shape (mem_shape_of_typeAt hdir)
        have hshorter : q.parent.names.length = k := by
          show q.names.dropLast.length = k
          rw [List.length_dropLast, hlength]
          rfl
        obtain ⟨hstart, hmet⟩ := mem_walk_iff.1 (ih hkey hdeep hshorter)
        exact mem_walk_iff.2 ⟨hstart, hmet.extend (mem_shape_of_typeAt hdir) hlisted rfl hne⟩

/-- A path at which there is something reaches what lies within it, and nothing else. -/
theorem mem_reach_iff (hheld : t.WellHeld p) (hthere : (t.get? p).isSome = true) :
    q ∈ t.reach p ↔ q.isWithin p = true ∧ (t.get? q).isSome = true := by
  rw [reach, List.mem_cons]
  constructor
  · rintro (rfl | hmem)
    · exact ⟨q.isWithin_self, hthere⟩
    · have hmet := (mem_walk_iff.1 hmem).2
      exact ⟨hmet.isWithin.1, hmet.isSome⟩
  · rintro ⟨hwithin, hsome⟩
    refine (Path.isWithin_iff_eq_or_isBelow.1 hwithin).imp_right fun hbelow => ?_
    exact hheld.mem_walk ((Table.mem_keys_iff t q).2 hsome) hbelow

/-- Giving away all that a path reaches gives away what lies within it. -/
theorem get?_giveAll_reach (hheld : t.WellHeld p) (hthere : (t.get? p).isSome = true) (uid : Int)
    (q : Path) : (t.giveAll uid (t.reach p)).get? q =
      if q.isWithin p = true then (t.get? q).map (·.ownedBy uid) else t.get? q := by
  rw [get?_giveAll]
  by_cases hwithin : q.isWithin p = true
  · rw [if_pos hwithin]
    split
    · rfl
    · rename_i hnot
      -- within the path and not reached: there is nothing to be given away
      have hnone : t.get? q = none := by
        simpa [hwithin] using (not_congr (hheld.mem_reach_iff hthere)).1 hnot
      rw [hnone]
      rfl
  · rw [if_neg hwithin, if_neg fun hq => hwithin ((hheld.mem_reach_iff hthere).1 hq).1]

end WellHeld

/-! ## Nothing is met twice -/

theorem nodup_children (hnodup : t.keys.Nodup) (type : EntryType) (p : Path) :
    (t.children type p).Nodup := by
  rw [children, (List.mergeSort_perm _ _).nodup_iff]
  exact hnodup.sublist (List.filter_sublist.map Prod.fst)

/-- A directory holds nothing that is a directory and a file at once. -/
theorem disjoint_children (hnodup : t.keys.Nodup) (p : Path) :
    List.Disjoint (t.children .directory p) (t.children .file p) := by
  intro q hdir hfile
  obtain ⟨e, he, hdir⟩ := List.mem_map.1 (mem_children.1 hdir).1
  obtain ⟨e', he', hfile⟩ := List.mem_map.1 (mem_children.1 hfile).1
  have hsame : e = e' := List.inj_on_of_nodup_map hnodup he he'
    ((congrArg Prod.fst hdir).trans (congrArg Prod.fst hfile).symm)
  subst hsame
  exact nomatch (congrArg Prod.snd hdir).symm.trans (congrArg Prod.snd hfile)

theorem length_of_mem_children (hq : q ∈ t.children type p) :
    q.names.length = p.names.length + 1 := by
  obtain ⟨-, hparent, hne⟩ := mem_children.1 hq
  exact Path.length_of_parent hparent hne

theorem nodup_below (hnodup : t.keys.Nodup) : ∀ (depth : Nat) (p : Path), (t.below depth p).Nodup := by
  intro depth
  induction depth with
  | zero => exact fun p => List.nodup_nil
  | succ depth ih =>
      intro p
      -- what lies deeper has more names than what the path holds
      have hdeeper : ∀ d ∈ t.children .directory p, ∀ q ∈ t.below depth d,
          p.names.length + 1 < q.names.length := by
        intro d hd q hq
        have hlength := length_of_mem_children hd
        have hbelow := (met_of_mem_below hq).isWithin.2
        omega
      have hheld : (t.children .directory p ++ t.children .file p).Nodup :=
        (nodup_children hnodup _ p).append (nodup_children hnodup _ p) (disjoint_children hnodup p)
      have hdeep : ((t.children .directory p).flatMap (t.below depth)).Nodup := by
        refine List.nodup_flatMap.2 ⟨fun d _ => ih d, ?_⟩
        refine (nodup_children hnodup .directory p).imp_of_mem fun {d d'} hd hd' hne => ?_
        intro q hq hq'
        exact hne (Path.eq_of_isWithin (met_of_mem_below hq).isWithin.1
          (met_of_mem_below hq').isWithin.1
          ((length_of_mem_children hd).trans (length_of_mem_children hd').symm))
      refine hheld.append hdeep fun q hq hq' => ?_
      obtain ⟨d, hd, hbelow⟩ := List.mem_flatMap.1 hq'
      have hlong := hdeeper d hd q hbelow
      have hshort : q.names.length = p.names.length + 1 :=
        (List.mem_append.1 hq).elim length_of_mem_children length_of_mem_children
      omega

/-- A path reaches nothing twice. -/
theorem WellHeld.nodup_reach (hheld : t.WellHeld p) : (t.reach p).Nodup := by
  refine List.nodup_cons.2 ⟨fun hself => ?_, ?_⟩
  · exact Nat.lt_irrefl _ (mem_walk_iff.1 hself).2.isWithin.2
  · unfold walk
    split
    · exact nodup_below hheld.nodup _ p
    · exact List.nodup_nil

end Tree

end Provisioning
