/-
# `Provisioning.Proofs.CommandLine.Split` — the directories in a text

Directories are written one after the other with commas between them.  What
stands between two commas gives one directory or none:

    white space alone                nothing
    anything else                    what is left of it without the white space around it

A directory that was read so is never empty, has no white space around it and
no comma in it (`IsDirectory`).

**Stated here.**  A text is read as exactly the directories that stand in it,
in their order (`splitDirectories_eq_iff`); reading distributes over commas
(`splitDirectories_intercalate`); and directories that are joined by commas
are read back (`splitDirectories_join`).
-/
import Provisioning.CommandLine.Parser
import Provisioning.Proofs.Text.Blank

namespace Provisioning.CommandLine

variable {s d : String} {ds : List String}

/-- A text that can be read as one directory. -/
structure IsDirectory (d : String) : Prop where
  ne_empty : d ≠ ""
  /-- There is no white space around it. -/
  solid : Text.IsSolid d.toList
  single : ',' ∉ d.toList

/-! ## One stretch between commas -/

theorem comma_not_mem_of_allBlank {g : List Char} (hg : Text.AllBlank g) : ',' ∉ g := by
  intro hcomma
  exact absurd (hg ',' hcomma) (by decide)

theorem splitDirectories_of_single (hsingle : ',' ∉ s.toList) :
    splitDirectories s = [String.ofList (Text.trimChars s.toList)].filter (· ≠ "") := by
  rw [splitDirectories, Text.pieces_of_not_mem hsingle, List.map_singleton]

theorem splitDirectories_of_allBlank (hs : Text.AllBlank s.toList) : splitDirectories s = [] := by
  rw [splitDirectories_of_single (comma_not_mem_of_allBlank hs), Text.trimChars_eq_nil_iff.2 hs]
  rfl

/-- White space around a directory does not count. -/
theorem splitDirectories_surrounded {front back : List Char} (hs : s.toList = front ++ d.toList ++ back)
    (hfront : Text.AllBlank front) (hback : Text.AllBlank back) (hd : IsDirectory d) :
    splitDirectories s = [d] := by
  have hsingle : ',' ∉ s.toList := by
    simp only [hs, List.mem_append, not_or]
    exact ⟨⟨comma_not_mem_of_allBlank hfront, hd.single⟩, comma_not_mem_of_allBlank hback⟩
  rw [splitDirectories_of_single hsingle, hs, Text.trimChars_surrounded hfront hback,
    hd.solid.trimChars_eq, String.ofList_toList]
  simp [hd.ne_empty]

theorem splitDirectories_of_isDirectory (hd : IsDirectory d) : splitDirectories d = [d] :=
  splitDirectories_surrounded (show d.toList = [] ++ d.toList ++ [] by simp) nofun nofun hd

/-! ## Texts with commas between them -/

theorem splitDirectories_append (s t : String) :
    splitDirectories (s ++ "," ++ t) = splitDirectories s ++ splitDirectories t := by
  have hchars : (s ++ "," ++ t).toList = s.toList ++ ',' :: t.toList := by simp
  rw [splitDirectories, hchars, Text.pieces_append_sep, List.map_append, List.filter_append]
  rfl

theorem splitDirectories_empty : splitDirectories "" = [] := by decide

/-- Reading distributes over commas. -/
theorem splitDirectories_intercalate (vs : List String) :
    splitDirectories (",".intercalate vs) = vs.flatMap splitDirectories := by
  induction vs with
  | nil => exact splitDirectories_empty
  | cons v vs ih =>
      cases vs with
      | nil => simp
      | cons w ws =>
          rw [String.intercalate_cons_cons, splitDirectories_append, ih, List.flatMap_cons (x := v)]

theorem isDirectory_of_mem (hd : d ∈ splitDirectories s) : IsDirectory d := by
  obtain ⟨hread, hne⟩ := List.mem_filter.1 hd
  obtain ⟨p, hp, rfl⟩ := List.mem_map.1 hread
  refine ⟨of_decide_eq_true hne, ?_, ?_⟩
  · rw [String.toList_ofList]
    exact Text.isSolid_trimChars p
  · rw [String.toList_ofList]
    exact fun hcomma => Text.not_mem_of_mem_pieces hp ((Text.trimChars_infix p).subset hcomma)

/-- Directories that are joined by commas are read back. -/
theorem splitDirectories_join (hds : ∀ d ∈ ds, IsDirectory d) :
    splitDirectories (",".intercalate ds) = ds := by
  rw [splitDirectories_intercalate]
  induction ds with
  | nil => rfl
  | cons d ds ih =>
      obtain ⟨hd, hds⟩ := List.forall_mem_cons.1 hds
      rw [List.flatMap_cons, splitDirectories_of_isDirectory hd, ih hds, List.singleton_append]

/-! ## What a text holds -/

/-- The directories that stretches hold, one after the other.  None of these stretches has a comma. -/
inductive Hold : List String → List String → Prop where
  | nil : Hold [] []
  | blank {g : String} {gs ds : List String} (blank : Text.AllBlank g.toList) (rest : Hold gs ds) :
      Hold (g :: gs) ds
  | directory {g d : String} {gs ds : List String} {front back : List Char}
      (stretch : g.toList = front ++ d.toList ++ back) (front_blank : Text.AllBlank front)
      (back_blank : Text.AllBlank back) (named : IsDirectory d) (rest : Hold gs ds) :
      Hold (g :: gs) (d :: ds)

/-- A text is stretches with commas between them, and these are the directories they hold. -/
def Lists (s : String) (ds : List String) : Prop :=
  ∃ g gs, s = ",".intercalate (g :: gs) ∧ Hold (g :: gs) ds

theorem Hold.flatMap_eq {gs : List String} (h : Hold gs ds) : gs.flatMap splitDirectories = ds := by
  induction h with
  | nil => rfl
  | blank hblank _ ih => rw [List.flatMap_cons, splitDirectories_of_allBlank hblank, ih, List.nil_append]
  | directory hstretch hfront hback hd _ ih =>
      rw [List.flatMap_cons, splitDirectories_surrounded hstretch hfront hback hd, ih,
        List.singleton_append]

theorem hold_of_single {gs : List String} (hgs : ∀ g ∈ gs, ',' ∉ g.toList) :
    Hold gs (gs.flatMap splitDirectories) := by
  induction gs with
  | nil => exact .nil
  | cons g gs ih =>
      obtain ⟨hg, hgs⟩ := List.forall_mem_cons.1 hgs
      rw [List.flatMap_cons]
      by_cases hblank : Text.AllBlank g.toList
      · rw [splitDirectories_of_allBlank hblank, List.nil_append]
        exact .blank hblank (ih hgs)
      · obtain ⟨front, back, hstretch, hfront, hback⟩ := Text.exists_surrounded g.toList
        have hne : String.ofList (Text.trimChars g.toList) ≠ "" := fun hempty =>
          hblank (Text.trimChars_eq_nil_iff.1 (by simpa using hempty))
        have hread : splitDirectories g = [String.ofList (Text.trimChars g.toList)] := by
          rw [splitDirectories_of_single hg]
          simp [hne]
        rw [hread, List.singleton_append]
        refine .directory ?_ hfront hback (isDirectory_of_mem (s := g) (by simp [hread])) (ih hgs)
        rwa [String.toList_ofList]

theorem ofList_joinPieces (ps : List (List Char)) :
    String.ofList (Text.joinPieces ',' ps) = ",".intercalate (ps.map String.ofList) := by
  induction ps with
  | nil => rfl
  | cons p ps ih =>
      cases ps with
      | nil => simp [Text.joinPieces]
      | cons q qs =>
          rw [List.map_cons, List.map_cons, String.intercalate_cons_cons, ← List.map_cons, ← ih,
            Text.joinPieces, ← String.toList_inj]
          simp

/-- Every text is its stretches without commas, with commas between them. -/
theorem exists_stretches (s : String) :
    ∃ g gs, s = ",".intercalate (g :: gs) ∧ ∀ x ∈ g :: gs, ',' ∉ x.toList := by
  obtain ⟨p, ps, hpieces⟩ := List.exists_cons_of_ne_nil (Text.pieces_ne_nil ',' s.toList)
  refine ⟨String.ofList p, ps.map String.ofList, ?_, ?_⟩
  · rw [← List.map_cons, ← hpieces, ← ofList_joinPieces, Text.joinPieces_pieces, String.ofList_toList]
  · intro x hx
    rw [← List.map_cons, ← hpieces] at hx
    obtain ⟨q, hq, rfl⟩ := List.mem_map.1 hx
    rw [String.toList_ofList]
    exact Text.not_mem_of_mem_pieces hq

/-- A text is read as the directories that it lists, and as nothing else. -/
theorem splitDirectories_eq_iff : splitDirectories s = ds ↔ Lists s ds := by
  constructor
  · rintro rfl
    obtain ⟨g, gs, rfl, hsingle⟩ := exists_stretches s
    refine ⟨g, gs, rfl, ?_⟩
    rw [splitDirectories_intercalate]
    exact hold_of_single hsingle
  · rintro ⟨g, gs, rfl, hhold⟩
    rw [splitDirectories_intercalate, hhold.flatMap_eq]

example : splitDirectories " a,, b\u3000,c d,\t" = ["a", "b", "c d"] := by decide

end Provisioning.CommandLine
