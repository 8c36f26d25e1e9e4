/-
# `Provisioning.Proofs.Cgroup.Paths` — where the directories of a group lie

The directories of a group are `<root>/<controller>/<group>`, and the name of
a group is any text but the empty one.  A text that is read as a path may have
a root of its own, may have no names (`.`), and may have `..` among its names.

    group      its directory for `memory`, under /sys/fs/cgroup
    sp         /sys/fs/cgroup/memory/sp
    a/b        /sys/fs/cgroup/memory/a/b
    .          /sys/fs/cgroup/memory
    ..         /sys/fs/cgroup/memory/..
    /srv       /srv

**Stated here.**  The directories are as many as there are controllers and lie
below those exactly when the name is plain (`all_inside_and_nodup_iff`): none
of the last three.
-/
import Mathlib.Data.List.Nodup
import Provisioning.Cgroup.Group

namespace Provisioning

/-! ## Joining -/

namespace Path

theorem join_of_relative {s : String} (hs : (ofString s).root = .relative) (p : Path) :
    (p.join s).root = p.root ∧ (p.join s).names = p.names ++ (ofString s).names := by
  unfold join
  dsimp only
  split
  · exact ⟨rfl, rfl⟩
  · rename_i hroot
    exact absurd hs hroot

/-- A text with a root of its own says all of the path. -/
theorem join_of_rooted {s : String} (hs : (ofString s).root ≠ .relative) (p : Path) :
    p.join s = ofString s := by
  unfold join
  dsimp only
  split
  · rename_i hroot
    exact absurd hroot hs
  · rfl

theorem isWithin_iff {p q : Path} :
    p.isWithin q = true ↔ p.root = q.root ∧ ∃ below, p.names = q.names ++ below := by
  rw [isWithin, Bool.and_eq_true, beq_iff_eq, List.isPrefixOf_iff_prefix]
  constructor
  · rintro ⟨hroot, below, hnames⟩
    exact ⟨hroot, below, hnames.symm⟩
  · rintro ⟨hroot, below, hnames⟩
    exact ⟨hroot, below, hnames.symm⟩

theorem isWithin_self (p : Path) : p.isWithin p = true := isWithin_iff.2 ⟨rfl, [], by simp⟩

theorem isBelow_iff {p q : Path} :
    p.isBelow q = true ↔ p.root = q.root ∧ ∃ below, below ≠ [] ∧ p.names = q.names ++ below := by
  rw [isBelow, Bool.and_eq_true, Bool.and_eq_true, beq_iff_eq, List.isPrefixOf_iff_prefix,
    bne_iff_ne]
  constructor
  · rintro ⟨⟨hroot, below, hnames⟩, hne⟩
    refine ⟨hroot, below, fun hnil => hne ?_, hnames.symm⟩
    rw [← hnames, hnil, List.append_nil]
  · rintro ⟨hroot, below, hne, hnames⟩
    refine ⟨⟨hroot, below, hnames.symm⟩, fun hsame => hne ?_⟩
    rw [hnames] at hsame
    exact List.append_right_eq_self.1 hsame

end Path

/-! ## The directories of a group -/

/-- The directory of a controller. -/
def CgroupSubsystem.directory (c : CgroupSubsystem) (root : Path) : Path := root.join c.toString

/-- The directory of a group for a controller. -/
def groupPath (root : Path) (group : String) (c : CgroupSubsystem) : Path :=
  (c.directory root).join group

/-- The directories of a group, in provisioning order. -/
def groupPaths (root : Path) (group : String) : List Path :=
  CgroupSubsystem.all.map (groupPath root group)

/-- The name of a group is one or more names below a controller, none of them `..`. -/
def IsPlainGroup (group : String) : Prop :=
  (Path.ofString group).root = .relative ∧ (Path.ofString group).names ≠ [] ∧
    ".." ∉ (Path.ofString group).names

/-- The path is the root, then the name of a controller, then one or more names, none of them
`..`. -/
def Path.Inside (p root : Path) : Prop :=
  ∃ (c : CgroupSubsystem) (below : List String), p.root = root.root ∧
    p.names = root.names ++ c.toString :: below ∧ below ≠ [] ∧ ".." ∉ below

namespace CgroupSubsystem

theorem mem_all (c : CgroupSubsystem) : c ∈ all := by cases c <;> decide

theorem nodup_all : all.Nodup := by decide

theorem toString_injective {c d : CgroupSubsystem} (h : c.toString = d.toString) : c = d := by
  revert h
  cases c <;> cases d <;> decide

theorem ofString_toString (c : CgroupSubsystem) :
    (Path.ofString c.toString).root = .relative ∧
      (Path.ofString c.toString).names = [c.toString] := by
  cases c <;> decide

theorem directory_root (c : CgroupSubsystem) (root : Path) : (c.directory root).root = root.root :=
  (Path.join_of_relative c.ofString_toString.1 root).1

theorem directory_names (c : CgroupSubsystem) (root : Path) :
    (c.directory root).names = root.names ++ [c.toString] := by
  rw [directory, (Path.join_of_relative c.ofString_toString.1 root).2, c.ofString_toString.2]

end CgroupSubsystem

section Group
variable {root p : Path} {group : String}

theorem paths_forGroup {specs : List CgroupSpec} (hspecs : CgroupSpec.forGroup group = .ok specs)
    (root : Path) : specs.map (fun s => s.path root) = groupPaths root group := by
  by_cases hnamed : group = ""
  · rw [CgroupSpec.forGroup, dif_pos hnamed] at hspecs
    exact nomatch hspecs
  · rw [CgroupSpec.forGroup_of_ne hnamed] at hspecs
    cases hspecs
    simp [groupPaths, groupPath, CgroupSpec.path, CgroupSubsystem.directory, Function.comp_def]

theorem ne_empty_of_forGroup {specs : List CgroupSpec}
    (hspecs : CgroupSpec.forGroup group = .ok specs) : group ≠ "" := by
  rintro rfl
  exact nomatch hspecs

theorem mem_groupPaths : p ∈ groupPaths root group ↔ ∃ c, p = groupPath root group c := by
  simp only [groupPaths, List.mem_map]
  constructor
  · rintro ⟨c, -, rfl⟩
    exact ⟨c, rfl⟩
  · rintro ⟨c, rfl⟩
    exact ⟨c, c.mem_all, rfl⟩

/-- A relative name is appended below each controller. -/
theorem groupPath_of_relative (hrelative : (Path.ofString group).root = .relative) (root : Path)
    (c : CgroupSubsystem) :
    (groupPath root group c).root = root.root ∧
      (groupPath root group c).names = root.names ++ c.toString :: (Path.ofString group).names := by
  obtain ⟨hroot, hnames⟩ := Path.join_of_relative hrelative (c.directory root)
  refine ⟨hroot.trans (c.directory_root root), ?_⟩
  rw [groupPath, hnames, c.directory_names]
  simp

/-- The directories of a group with a root of its own are all the same one. -/
theorem groupPath_of_rooted (hrooted : (Path.ofString group).root ≠ .relative) (root : Path)
    (c : CgroupSubsystem) : groupPath root group c = Path.ofString group :=
  Path.join_of_rooted hrooted (c.directory root)

/-- Each controller has a directory of its own for a group with a relative name. -/
theorem groupPath_injective (hrelative : (Path.ofString group).root = .relative)
    {c d : CgroupSubsystem} (hsame : groupPath root group c = groupPath root group d) : c = d := by
  have hnames := congrArg Path.names hsame
  rw [(groupPath_of_relative hrelative root c).2, (groupPath_of_relative hrelative root d).2]
    at hnames
  exact CgroupSubsystem.toString_injective (List.cons.inj (List.append_cancel_left hnames)).1

theorem nodup_groupPaths (hrelative : (Path.ofString group).root = .relative) :
    (groupPaths root group).Nodup :=
  CgroupSubsystem.nodup_all.map fun _ _ hsame => groupPath_injective hrelative hsame

theorem relative_of_nodup (hnodup : (groupPaths root group).Nodup) :
    (Path.ofString group).root = .relative := by
  by_cases hrelative : (Path.ofString group).root = .relative
  · exact hrelative
  · have hall : groupPaths root group =
        List.replicate CgroupSubsystem.all.length (Path.ofString group) := by
      rw [groupPaths, List.map_congr_left fun c _ => groupPath_of_rooted hrelative root c]
      exact List.map_const' ..
    rw [hall, List.nodup_replicate] at hnodup
    exact absurd hnodup (by decide)

theorem IsPlainGroup.inside (hplain : IsPlainGroup group) (hp : p ∈ groupPaths root group) :
    p.Inside root := by
  obtain ⟨hrelative, hne, hup⟩ := hplain
  obtain ⟨c, rfl⟩ := mem_groupPaths.1 hp
  obtain ⟨hroot, hnames⟩ := groupPath_of_relative hrelative root c
  exact ⟨c, _, hroot, hnames, hne, hup⟩

/-- The directories of a group are inside the controllers and pairwise distinct exactly when its
name is plain. -/
theorem all_inside_and_nodup_iff :
    ((∀ p ∈ groupPaths root group, p.Inside root) ∧ (groupPaths root group).Nodup) ↔
      IsPlainGroup group := by
  constructor
  · rintro ⟨hinside, hnodup⟩
    have hrelative := relative_of_nodup hnodup
    obtain ⟨c, below, -, hnames, hne, hup⟩ :=
      hinside _ (mem_groupPaths.2 ⟨CgroupSubsystem.memory, rfl⟩)
    rw [(groupPath_of_relative hrelative root CgroupSubsystem.memory).2] at hnames
    obtain ⟨-, rfl⟩ := List.cons.inj (List.append_cancel_left hnames)
    exact ⟨hrelative, hne, hup⟩
  · intro hplain
    exact ⟨fun p hp => hplain.inside hp, nodup_groupPaths hplain.1⟩

example :
    IsPlainGroup "a/b" ∧ ¬ IsPlainGroup "." ∧ ¬ IsPlainGroup ".." ∧ ¬ IsPlainGroup "/srv" := by
  unfold IsPlainGroup
  decide

/-- What is inside the controllers is strictly below one of their directories. -/
theorem Path.Inside.isBelow {q : Path} (hinside : q.Inside root) (hp : p.isWithin q = true) :
    ∃ c : CgroupSubsystem, p.isBelow (c.directory root) = true := by
  obtain ⟨c, below, hroot, hnames, hne, -⟩ := hinside
  obtain ⟨hroot', below', hnames'⟩ := Path.isWithin_iff.1 hp
  refine ⟨c, Path.isBelow_iff.2 ⟨?_, below ++ below', ?_, ?_⟩⟩
  · rw [hroot', hroot, c.directory_root]
  · intro hnil
    exact hne (List.append_eq_nil_iff.1 hnil).1
  · rw [hnames', hnames, c.directory_names]
    simp

end Group

end Provisioning
