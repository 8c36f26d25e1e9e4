/-
# `Provisioning.Proofs.Directory.Listing` — reading what was printed

A listing is printed line by line and read line by line.  What a line is read
as depends on what stands on it after the blanks and the path are taken off:

    the first line      path, blank, entry     the entry
    a later entry       blanks, entry          the entry, unless it begins with the path
    a trailer           no mask                nothing

So all that is asked of the path is that it is itself found again on the first
line and on no later one (`Listing.Told`).  A path that begins with a drive is,
whatever the entries: its first colon stands before a backslash, and that of an
entry before a parenthesis.

**Stated here.**  Which entries a listing is read as (`explicit_lines`), and that
for every name the last managed entry counts (`readListing_print`).
-/
import Mathlib.Data.List.Basic
import Provisioning.Directory.Listing

namespace Provisioning

namespace AccessRights

/-- A mask is one of the two if it is that of some rights. -/
theorem ofMask?_eq_some_iff {mask : String} {r : AccessRights} :
    ofMask? mask = some r ↔ mask = r.mask := by
  rw [ofMask?]
  constructor
  · intro hfound
    have hmask := List.find?_some hfound
    exact (beq_iff_eq.1 hmask).symm
  · rintro rfl
    cases r <;> decide

/-- Neither mask is inherited. -/
theorem not_inherited_mask (r : AccessRights) : occursIn ['(', 'I', ')'] r.mask.toList = false := by
  cases r <;> decide

end AccessRights

/-! ## Lines -/

namespace ListedEntry

variable {path line : List Char} {e : ListedEntry}

/-- The entry was passed on from a directory above. -/
def Inherited (e : ListedEntry) : Prop := ['(', 'I', ')'] <:+: e.mask

instance (e : ListedEntry) : Decidable e.Inherited :=
  inferInstanceAs (Decidable (['(', 'I', ')'] <:+: e.mask))

/-- What the entry is read as, unless it is inherited: its name and its mask. -/
def explicit? (e : ListedEntry) : Option (String × String) :=
  if e.Inherited then none else some (String.ofList e.name, String.ofList e.mask)

/-- An entry of which the mask stands for some rights, with its name and those rights. -/
def managed? (e : ListedEntry) : Option (String × AccessRights) :=
  (AccessRights.ofMask? (String.ofList e.mask)).map fun r => (String.ofList e.name, r)

theorem managed?_eq_some_iff {name : String} {r : AccessRights} :
    e.managed? = some (name, r) ↔ String.ofList e.name = name ∧ String.ofList e.mask = r.mask := by
  rw [managed?, Option.map_eq_some_iff]
  constructor
  · rintro ⟨r', hmask, hentry⟩
    cases hentry
    exact ⟨rfl, AccessRights.ofMask?_eq_some_iff.1 hmask⟩
  · rintro ⟨rfl, hmask⟩
    exact ⟨r, AccessRights.ofMask?_eq_some_iff.2 hmask, rfl⟩

/-- No entry with a managed mask is inherited. -/
theorem explicit?_of_managed {r : AccessRights} (hmask : String.ofList e.mask = r.mask) :
    e.explicit? = some (String.ofList e.name, r.mask) := by
  have hexplicit : ¬ e.Inherited := by
    rw [Inherited, ← String.toList_ofList (l := e.mask), hmask, ← occursIn_iff_infix,
      r.not_inherited_mask]
    decide
  rw [explicit?, if_neg hexplicit, hmask]

theorem explicit?_bind (e : ListedEntry) :
    (e.explicit?.bind fun entry => (AccessRights.ofMask? entry.2).bind fun r => some (entry.1, r)) =
      e.managed? := by
  rw [managed?]
  cases hmanaged : AccessRights.ofMask? (String.ofList e.mask) with
  | some r =>
      have hmask := AccessRights.ofMask?_eq_some_iff.1 hmanaged
      rw [explicit?_of_managed hmask, Option.bind_some, ← hmask, hmanaged]
      rfl
  | none =>
      rw [explicit?]
      split
      · rfl
      · rw [Option.bind_some, hmanaged]
        rfl

theorem account_ne_nil (e : ListedEntry) : e.account ≠ [] :=
  fun hnil => e.named (List.append_eq_nil_iff.1 hnil).2

theorem text_eq (e : ListedEntry) : e.text = (e.account ++ ':' :: '(' :: e.inside) ++ [')'] := by
  simp [text, mask]

/-- An entry begins with its account, so with no blank. -/
theorem solid_append (e : ListedEntry) (rest : List Char) :
    Text.beginsSolid (e.account ++ rest) = true := by
  have hsolid : Text.beginsSolid e.account = true := e.solid
  cases haccount : e.account with
  | nil => exact absurd haccount e.account_ne_nil
  | cons c r =>
      rw [haccount] at hsolid
      exact hsolid

theorem trim_text (e : ListedEntry) : Text.trimChars e.text = e.text := by
  rw [text_eq]
  exact Text.trimChars_of_solid (e.solid_append _) (by decide)

theorem oneLine_text (e : ListedEntry) : Text.isOneLine e.text = true := by
  obtain ⟨haccount, hinside⟩ : Text.isOneLine e.account = true ∧ Text.isOneLine e.inside = true := by
    simpa [account] using e.oneLine
  simp only [text, mask, Text.isOneLine_append, Text.isOneLine_cons, haccount, hinside,
    Bool.true_and]
  decide

/-- What an entry is read as wherever it is what a line comes down to. -/
theorem explicitAce?_eq (hline : afterPath path (Text.trimChars line) = e.text) :
    explicitAce? path line = e.explicit? := by
  have hcut : cutAtMask e.text = some (e.account, e.inside ++ [')']) :=
    cutAtMask_append e.uncut _
  have hname : withoutDomain e.account = e.name := by
    refine withoutDomain_append ?_ e.unqualified
    cases e.domain with
    | none => rfl
    | some d => simp
  rw [explicitAce?, hline, hcut, explicit?]
  simp only [hname, Inherited, occursIn_iff_infix]
  rfl

end ListedEntry

/-- A trailer is read as nothing, whatever the path. -/
theorem TrailerLine.explicitAce?_eq_none (t : TrailerLine) (path : List Char) :
    explicitAce? path t.text = none := by
  have hleft : afterPath path (Text.trimChars t.text) <:+: t.text := by
    rw [afterPath]
    split
    · exact (Text.trimChars_infix _).trans
        ((List.drop_suffix _ _).isInfix.trans (Text.trimChars_infix _))
    · exact Text.trimChars_infix _
  have huncut : ¬ [':', '('] <:+: t.text := by
    rw [← occursIn_iff_infix, t.uncut]
    decide
  rw [explicitAce?, cutAtMask_eq_none fun hmask => huncut (hmask.trans hleft)]

/-! ## Listings -/

namespace Listing

/-- A path is found again on the first line of a listing that is printed for it, and on no later
one. -/
structure Told (l : Listing) (path : List Char) : Prop where
  solid : Text.beginsSolid path = true
  oneLine : Text.isOneLine path = true
  apart : ∀ e ∈ l.entries.tail, ¬ path <+: e.text

variable {l : Listing} {path : List Char} {e : ListedEntry}

/-- The first entry is what is left of its line after the path. -/
theorem afterPath_first (hsolid : Text.beginsSolid path = true) :
    afterPath path (Text.trimChars (path ++ ' ' :: e.text)) = e.text := by
  have hblank : Text.trimChars (' ' :: e.text) = e.text := by
    have hspace : ∀ c ∈ [' '], Text.isBlank c = true := by
      intro c hc
      rw [List.mem_singleton.1 hc]
      decide
    rw [← List.singleton_append, Text.trimChars_append hspace, e.trim_text]
  cases path with
  | nil =>
      rw [List.nil_append, hblank, afterPath,
        if_pos (List.isPrefixOf_iff_prefix.2 List.nil_prefix)]
      exact e.trim_text
  | cons c r =>
      have hline : Text.trimChars (c :: r ++ ' ' :: e.text) = c :: r ++ ' ' :: e.text := by
        rw [e.text_eq, ← List.cons_append, ← List.append_assoc]
        exact Text.trimChars_of_solid hsolid (by decide)
      have hbegins : (c :: r).isPrefixOf (c :: r ++ ' ' :: e.text) = true :=
        List.isPrefixOf_iff_prefix.2 (List.prefix_append _ _)
      rw [hline, afterPath, if_pos hbegins, List.drop_left, hblank]

/-- A later entry is what is left of its line without the indentation. -/
theorem afterPath_later (hapart : ¬ path <+: e.text) (indent : Nat) :
    afterPath path (Text.trimChars (List.replicate indent ' ' ++ e.text)) = e.text := by
  have hblank : ∀ c ∈ List.replicate indent ' ', Text.isBlank c = true := by
    intro c hc
    rw [List.eq_of_mem_replicate hc]
    decide
  rw [Text.trimChars_append hblank, e.trim_text, afterPath, if_neg]
  rwa [List.isPrefixOf_iff_prefix]

theorem oneLine_lines (hpath : Text.isOneLine path = true) :
    ∀ line ∈ l.lines path, Text.isOneLine line = true := by
  intro line hline
  rw [lines, List.mem_append] at hline
  rcases hline with hentry | htrailer
  · cases hentries : l.entries with
    | nil =>
        rw [hentries] at hentry
        cases hentry
    | cons e es =>
        rw [hentries, List.mem_cons, List.mem_map] at hentry
        rcases hentry with rfl | ⟨e', -, rfl⟩
        · rw [Text.isOneLine_append, Text.isOneLine_cons, hpath, e.oneLine_text]
          decide
        · have hindent : Text.isOneLine (List.replicate l.indent ' ') = true := by
            simp [Text.isOneLine, Text.isLineEnd]
          rw [Text.isOneLine_append, hindent, e'.oneLine_text]
          rfl
  · obtain ⟨t, -, rfl⟩ := List.mem_map.1 htrailer
    exact t.oneLine

/-- A listing is read as its entries, as they come, but for those that are inherited. -/
theorem explicit_lines (htold : l.Told path) :
    (l.lines path).filterMap (explicitAce? path) = l.entries.filterMap ListedEntry.explicit? := by
  have htrailers : (l.trailers.map TrailerLine.text).filterMap (explicitAce? path) = [] := by
    rw [List.filterMap_map, List.filterMap_eq_nil_iff]
    intro t _
    exact t.explicitAce?_eq_none path
  rw [lines, List.filterMap_append, htrailers, List.append_nil]
  cases hentries : l.entries with
  | nil => rfl
  | cons e es =>
      have hfirst : explicitAce? path (path ++ ' ' :: e.text) = e.explicit? :=
        e.explicitAce?_eq (afterPath_first htold.solid)
      have hlater : ∀ e' ∈ es,
          explicitAce? path (List.replicate l.indent ' ' ++ e'.text) = e'.explicit? := by
        intro e' he'
        refine e'.explicitAce?_eq (afterPath_later (htold.apart e' ?_) l.indent)
        rw [hentries]
        exact he'
      have hrest : (es.map fun x => List.replicate l.indent ' ' ++ x.text).filterMap
          (explicitAce? path) = es.filterMap ListedEntry.explicit? := by
        rw [List.filterMap_map]
        exact List.filterMap_congr hlater
      rw [List.filterMap_cons, List.filterMap_cons, hfirst, hrest]

/-- What is printed is read as its entries that have a managed mask. -/
theorem readListing_print_eq {path : String} (htold : l.Told path.toList) :
    readListing path (l.print path) = .ofRows (l.entries.filterMap ListedEntry.managed?) := by
  have hsplit : Text.splitLines (l.print path).toList = l.lines path.toList := by
    rw [print, String.toList_ofList, Text.splitLines_ended _ (oneLine_lines htold.oneLine)]
  have hread : managedAce? path.toList =
      fun line => (explicitAce? path.toList line).bind fun entry =>
        (AccessRights.ofMask? entry.2).bind fun r => some (entry.1, r) := rfl
  rw [readListing, hsplit, hread, ← List.filterMap_filterMap, explicit_lines htold,
    List.filterMap_filterMap]
  exact congrArg _ (List.filterMap_congr fun e _ => e.explicit?_bind)

/-- Of the entries of a name the last one that has a managed mask has that of these rights. -/
def LastManaged (entries : List ListedEntry) (name : String) (r : AccessRights) : Prop :=
  ∃ before e after, entries = before ++ e :: after ∧ String.ofList e.name = name ∧
    String.ofList e.mask = r.mask ∧
    ∀ e' ∈ after, String.ofList e'.name = name → ∀ r' : AccessRights,
      String.ofList e'.mask ≠ r'.mask

/-- That entry is the one that counts. -/
theorem get?_readListing_eq_some_iff {path name : String} {r : AccessRights}
    (htold : l.Told path.toList) :
    (readListing path (l.print path)).get? name = some r ↔ LastManaged l.entries name r := by
  rw [LastManaged, readListing_print_eq htold, Table.get?_ofRows_eq_some_iff]
  constructor
  · rintro ⟨rows, rows', hrows, hlast⟩
    obtain ⟨es, es', hentries, -, hes'⟩ := List.filterMap_eq_append_iff.1 hrows
    obtain ⟨before, e, after, rfl, -, hmanaged, rfl⟩ := List.filterMap_eq_cons_iff.1 hes'
    obtain ⟨hname, hmask⟩ := ListedEntry.managed?_eq_some_iff.1 hmanaged
    refine ⟨es ++ before, e, after, by rw [hentries, List.append_assoc], hname, hmask, ?_⟩
    intro e' hmem hname' r' hmask'
    have hrow := List.mem_filterMap.2
      ⟨e', hmem, ListedEntry.managed?_eq_some_iff.2 ⟨hname', hmask'⟩⟩
    exact hlast _ hrow rfl
  · rintro ⟨before, e, after, hentries, hname, hmask, hlast⟩
    refine ⟨before.filterMap ListedEntry.managed?, after.filterMap ListedEntry.managed?, ?_, ?_⟩
    · rw [hentries, List.filterMap_append, List.filterMap_cons,
        ListedEntry.managed?_eq_some_iff.2 ⟨hname, hmask⟩]
    · rintro ⟨name', r'⟩ hrow hsame
      obtain ⟨e', hmem, hmanaged⟩ := List.mem_filterMap.1 hrow
      obtain ⟨hname', hmask'⟩ := ListedEntry.managed?_eq_some_iff.1 hmanaged
      exact hlast e' hmem (hname'.trans hsame) _ hmask'

end Listing

/-! ## Paths that begin with a drive -/

/-- A path of a drive: a letter, a colon, a backslash and the rest, all on one line. -/
structure DrivePath where
  letter : Char
  rest : List Char
  solid : Text.isBlank letter = false
  oneLine : Text.isOneLine rest = true

namespace DrivePath

def toString (path : DrivePath) : String := String.ofList (path.letter :: ':' :: '\\' :: path.rest)

/-- No entry begins with a drive, and the path is on one line, so it is found again on the first
line alone. -/
theorem told (path : DrivePath) (l : Listing) : l.Told path.toString.toList := by
  rw [toString, String.toList_ofList]
  refine ⟨?_, ?_, fun e _ hbegins => ?_⟩
  · simp [Text.beginsSolid, path.solid]
  · have hletter : Text.isLineEnd path.letter = false := by
      have hblank := path.solid
      cases hend : Text.isLineEnd path.letter with
      | false => rfl
      | true => rw [Text.isBlank_of_isLineEnd hend] at hblank; cases hblank
    simp only [Text.isOneLine_cons, hletter, path.oneLine]
    decide
  · obtain ⟨t, htext⟩ := hbegins
    have huncut : ':' ∉ e.account := e.uncut
    rw [ListedEntry.text] at htext
    -- the account has a first character, and the colon after it is either its own or cuts it off
    cases haccount : e.account with
    | nil => exact e.account_ne_nil haccount
    | cons c more =>
        rw [haccount] at htext huncut
        obtain ⟨-, htext⟩ := List.cons.inj htext
        cases more with
        | nil => cases htext
        | cons d _ =>
            obtain ⟨hcolon, -⟩ := List.cons.inj htext
            exact huncut (hcolon ▸ List.mem_cons_of_mem _ List.mem_cons_self)

end DrivePath

/-- **What was printed is read back.**  Whatever entries are listed for the path of a drive, an
account is read to have the rights of the last entry of its name of which the mask is the one that
is set for some rights; an account without such an entry is left out. -/
theorem readListing_print (path : DrivePath) (l : Listing) (name : String) (r : AccessRights) :
    (readListing path.toString (l.print path.toString)).get? name = some r ↔
      ∃ before e after, l.entries = before ++ e :: after ∧ String.ofList e.name = name ∧
        String.ofList e.mask = r.mask ∧
        ∀ e' ∈ after, String.ofList e'.name = name → ∀ r' : AccessRights,
          String.ofList e'.mask ≠ r'.mask :=
  l.get?_readListing_eq_some_iff (path.told l)

example :
    (readListing "C:\\work"
      ("C:\\work BUILTIN\\Administrators:(OI)(CI)(F)\n" ++
        "        HOST\\bob:(OI)(CI)(RX,W)\n" ++
        "        HOST\\eve:(OI)(CI)(M)\n" ++
        "        NT AUTHORITY\\SYSTEM:(I)(OI)(CI)(F)\n" ++
        "\nSuccessfully processed 1 files; Failed processing 0 files\n")).rows =
      [("Administrators", .fullControl), ("bob", .readWriteCreate)] := by decide +kernel

end Provisioning
