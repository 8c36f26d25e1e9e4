/-
# `Provisioning.Proofs.Directory.Latest` — whether the last rights win

The accounts of a host tell names apart without regard to case, its access
lists tell them apart as texts.  So one account may be granted a directory
under several names, and each of them has an entry of its own.

    granted as            rights             entry svc       entry SVC
    svc                   FullControl        FullControl
    SVC                   ReadWriteCreate    FullControl     ReadWriteCreate

**Stated here.**  After any grants, batches and runs each entry carries the
rights of the last grant under exactly its name (`afterGrants_afterWorks`).  So
the last grant to an account decides all of its entries on the path exactly if
no other name of the account was last granted other rights, or had them before
(`last_rights_win_iff`).
-/
import Provisioning.Proofs.Directory.Granted

namespace Provisioning

open Run

/-- Work that grants directories, with every backend kept in memory. -/
inductive DirectoryWork where
  | grant (i : Identity) (path : String) (rights : AccessRights)
  | batch (i : Identity) (paths : List String) (rights : AccessRights)
  /-- A run, in which whoever is asked leaves the entries alone. -/
  | run (o : Orchestrator) (request : Request) (htables : o.OnTables)
    (hkeeps : ∀ h, ((o.confirm request).hostAfter h).access.lists = h.access.lists)

namespace DirectoryWork

/-- The host after the work, however it ended. -/
def after : DirectoryWork → Host → Host
  | .grant i path rights => (AccessControl.grant .table .table i path rights).hostAfter
  | .batch i paths rights => (AccessControl.grantAll .table .table i paths rights).hostAfter
  | .run o request _ _ => fun h => (o.sessionAfter request ⟨h, none⟩).host

/-- The grants that the work makes, in order. -/
def grants : DirectoryWork → Host → List DirectoryGrant
  | .grant i path rights, h =>
    match AccessControl.grant .table .table i path rights h with
    | .ok g _ => [g]
    | .error _ _ => []
  | .batch i paths rights, h => AccessControl.grantsOfAll i paths rights h
  | .run o request _ _, h => o.grantsOfRun request h

/-- The host after several pieces of work. -/
def afterWorks (ws : List DirectoryWork) (h : Host) : Host := ws.foldl (fun h w => w.after h) h

/-- The grants that several pieces of work make, in order. -/
def grantsIn : List DirectoryWork → Host → List DirectoryGrant
  | [], _ => []
  | w :: ws, h => w.grants h ++ grantsIn ws (w.after h)

/-- What a piece of work leaves of the access lists. -/
theorem afterGrants_after (w : DirectoryWork) (h : Host) :
    h.access.AfterGrants (w.grants h) (w.after h).access := by
  cases w with
  | grant i path rights =>
      have hends := AccessControl.grantEnds_grant i path rights h
      unfold grants after
      dsimp only
      cases hgrant : AccessControl.grant .table .table i path rights h with
      | ok g h' =>
          rw [hgrant] at hends
          rw [hostAfter_of_ok hgrant]
          cases hends with
          | granted hafter => exact hafter
      | error e h' =>
          rw [hgrant] at hends
          rw [hostAfter_of_error hgrant]
          cases hends with
          | refused hsame => exact AccessTable.afterGrants_nil (congrArg AccessTable.lists hsame)
  | batch i paths rights => exact AccessControl.afterGrants_grantAll i paths rights h
  | run o request htables hkeeps => exact Orchestrator.afterGrants_run htables hkeeps ⟨h, none⟩

/-- What any work leaves of the access lists. -/
theorem afterGrants_afterWorks (ws : List DirectoryWork) :
    ∀ h : Host, h.access.AfterGrants (grantsIn ws h) (afterWorks ws h).access := by
  induction ws with
  | nil =>
      intro h
      exact AccessTable.afterGrants_nil rfl
  | cons w ws ih =>
      intro h
      exact (w.afterGrants_after h).append (ih (w.after h))

end DirectoryWork

/-! ## Under every name of an account -/

/-- The last grant of a list on a path to an account, under whichever of its names. -/
def lastTo (gs : List DirectoryGrant) (path account : String) : Option DirectoryGrant :=
  (gs.filter fun g => g.path = path ∧ Text.lower g.identity.name = Text.lower account).getLast?

/-- On its path, every other name of its account was granted nothing but the rights of `g` last, or
had nothing else before. -/
def NamesAgree (t : AccessTable) (gs : List DirectoryGrant) (g : DirectoryGrant) : Prop :=
  ∀ name rights, Text.lower name = Text.lower g.identity.name → name ≠ g.identity.name →
    (latest gs g.path name).or (t.entry g.path name) = some rights → rights = g.rights

section

variable {gs : List DirectoryGrant} {path account : String} {g : DirectoryGrant}

theorem latest_eq_none_of_forall {name : String}
    (hother : ∀ g ∈ gs, g.path = path → g.identity.name ≠ name) : latest gs path name = none := by
  have hnone : gs.filter (fun g => g.path = path ∧ g.identity.name = name) = [] :=
    List.filter_eq_nil_iff.2 fun g hg => by simpa using hother g hg
  rw [latest, hnone]
  rfl

/-- The last grant to an account is a grant on the path to it. -/
theorem lastTo_spec (hlast : lastTo gs path account = some g) :
    g.path = path ∧ Text.lower g.identity.name = Text.lower account :=
  of_decide_eq_true (List.mem_filter.1 (List.mem_of_getLast? hlast)).2

/-- The last grant to an account is the last under its own name. -/
theorem latest_of_lastTo (hlast : lastTo gs path account = some g) :
    latest gs path g.identity.name = some g.rights := by
  have hg := lastTo_spec hlast
  obtain ⟨before, hto⟩ := List.getLast?_eq_some_iff.1 hlast
  -- the grants under its name are some of those to the account
  have hsome : gs.filter (fun g' => g'.path = path ∧ g'.identity.name = g.identity.name) =
      (before ++ [g]).filter fun g' => g'.path = path ∧ g'.identity.name = g.identity.name := by
    rw [← hto, List.filter_filter]
    refine List.filter_congr fun g' _ => ?_
    by_cases hname : g'.path = path ∧ g'.identity.name = g.identity.name
    · simp [hname.1, hname.2, hg.2]
    · simp [hname]
  rw [latest, hsome, List.filter_append, List.getLast?_append]
  simp [hg.1]

theorem lower_ne_of_lastTo_none (hlast : lastTo gs path account = none) :
    ∀ g ∈ gs, g.path = path → Text.lower g.identity.name ≠ Text.lower account := by
  intro g hg hpath hname
  have hnone := List.getLast?_eq_none_iff.1 hlast
  exact List.filter_eq_nil_iff.1 hnone g hg (decide_eq_true ⟨hpath, hname⟩)

end

open DirectoryWork

/-- **Whether the last rights win.**  After any work that grants directories, each entry has the
rights of the last grant on its path and for its name, compared as texts, or is what it was.  So an
account that was granted nothing on the path keeps its entries there.  To any other the last grant
decides the entry of the name it was made for, and all entries of the account exactly if its other
names agree. -/
theorem last_rights_win_iff (ws : List DirectoryWork) (h : Host) (path account : String) :
    let gs := grantsIn ws h
    let t := (afterWorks ws h).access
    (∀ name, t.entry path name = (latest gs path name).or (h.access.entry path name)) ∧
    (lastTo gs path account = none → ∀ name, Text.lower name = Text.lower account →
      t.entry path name = h.access.entry path name) ∧
    ∀ g, lastTo gs path account = some g →
      t.entry path g.identity.name = some g.rights ∧
      ((∀ name rights, Text.lower name = Text.lower account →
          t.entry path name = some rights → rights = g.rights) ↔ NamesAgree h.access gs g) := by
  intro gs t
  have hafter : ∀ name, t.entry path name = (latest gs path name).or (h.access.entry path name) :=
    afterGrants_afterWorks ws h path
  refine ⟨hafter, fun hnone name hname => ?_, fun g hlast => ?_⟩
  · have hother : latest gs path name = none :=
      latest_eq_none_of_forall fun g hg hpath hown =>
        lower_ne_of_lastTo_none hnone g hg hpath (hown ▸ hname)
    rw [hafter, hother, Option.none_or]
  · obtain ⟨hpath, haccount⟩ := lastTo_spec hlast
    have hown : t.entry path g.identity.name = some g.rights := by
      rw [hafter, latest_of_lastTo hlast, Option.some_or]
    refine ⟨hown, fun hall name rights hname _ hentry => ?_, fun hagree name rights hname hentry => ?_⟩
    · rw [hpath, ← hafter] at hentry
      exact hall name rights (hname.trans haccount) hentry
    · by_cases hsame : name = g.identity.name
      · rw [hsame, hown] at hentry
        exact (Option.some.inj hentry).symm
      · rw [hafter, ← hpath] at hentry
        exact hagree name rights (hname.trans haccount.symm) hsame hentry

/-- Full control that was granted to an account under one name is left after fewer rights were
granted to it under another. -/
theorem not_always_last_rights :
    ¬ ∀ (ws : List DirectoryWork) (h : Host) (path account : String) (g : DirectoryGrant),
      lastTo (grantsIn ws h) path account = some g →
      ∀ name rights, Text.lower name = Text.lower account →
        (afterWorks ws h).access.entry path name = some rights → rights = g.rights := by
  intro hwin
  let svc : Identity := { name := "svc", present := true, named := by decide }
  let upper : Identity := { name := "SVC", present := true, named := by decide }
  let ws : List DirectoryWork :=
    [.grant svc "/srv" .fullControl, .grant upper "/srv" .readWriteCreate]
  let h : Host := { accounts := .ofNames ["svc"] "operator", tree := .ofRows [(Path.ofString "/srv", {})] }
  have hlast : lastTo (grantsIn ws h) "/srv" "svc" =
      some { identity := upper, path := "/srv", rights := .readWriteCreate } := by decide +kernel
  have hleft : (afterWorks ws h).access.entry "/srv" "svc" = some .fullControl := by decide +kernel
  exact absurd (hwin ws h "/srv" "svc" _ hlast "svc" .fullControl rfl hleft) (by decide)

end Provisioning
