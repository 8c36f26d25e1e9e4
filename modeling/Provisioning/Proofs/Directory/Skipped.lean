/-
# `Provisioning.Proofs.Directory.Skipped` — which grants are skipped

Before an entry is set with the access list editor the entries of the path are
listed, and nothing is set if the account is read to have the rights already.
What it is read to have is the mask of the last entry of its name that the
library manages.  The other entries of the name are not looked at, and neither
is the domain:

    HOST\bob:(M)                  bob may modify what is there
    HOST\bob:(OI)(CI)(RX,W)       a managed entry, so this one counts
    OTHER\bob:(OI)(CI)(RX,W)      it would count just as well, for bob too

So a grant is also skipped where setting the entry would have changed something.

**Stated here.**  A grant is skipped exactly if the account is read to have the
rights, whatever was printed; where that is a listing, exactly if it is right
for the account or is overlooked to be wrong, and never both (`grant_skips_iff`).
-/
import Provisioning.Proofs.Account.Table
import Provisioning.Proofs.Directory.Grant
import Provisioning.Proofs.Directory.Listing
import Provisioning.Proofs.Host.Command

namespace Provisioning

/-! ## Listings that are right, and others -/

/-- The entry is of an account of a name, whatever its domain, and is not inherited. -/
def ListedEntry.Of (e : ListedEntry) (name : String) : Prop :=
  ¬ e.Inherited ∧ String.ofList e.name = name

namespace Listing

variable {l : Listing} {own : Option (List Char) → Prop} {name : String} {rights r : AccessRights}
  {entries : List ListedEntry}

/-- Setting an entry would change nothing: there is one of the account itself, in a domain that is
its own, and those of its name have no other mask. -/
structure Right (l : Listing) (own : Option (List Char) → Prop) (name : String)
    (rights : AccessRights) : Prop where
  listed : ∃ e ∈ l.entries, e.Of name ∧ own e.domain
  only : ∀ e ∈ l.entries, e.Of name → String.ofList e.mask = rights.mask

/-- The last managed entry of a name has the mask, but another entry of the name has another one, or
none is of the account itself. -/
structure Overlooks (l : Listing) (own : Option (List Char) → Prop) (name : String)
    (rights : AccessRights) : Prop where
  last : LastManaged l.entries name rights
  wrong : (∃ e ∈ l.entries, e.Of name ∧ String.ofList e.mask ≠ rights.mask) ∨
    ∀ e ∈ l.entries, e.Of name → ¬ own e.domain

theorem of_managed {e : ListedEntry} (hname : String.ofList e.name = name)
    (hmask : String.ofList e.mask = r.mask) : e.Of name := by
  refine ⟨fun hinherited => ?_, hname⟩
  have hexplicit := ListedEntry.explicit?_of_managed hmask
  rw [ListedEntry.explicit?, if_pos hinherited] at hexplicit
  cases hexplicit

/-- Among entries of which one is managed there is a last one. -/
theorem exists_lastManaged
    (hsome : ∃ e ∈ entries, String.ofList e.name = name ∧
      ∃ r : AccessRights, String.ofList e.mask = r.mask) :
    ∃ r, LastManaged entries name r := by
  induction entries with
  | nil => simp at hsome
  | cons first rest ih =>
      by_cases hrest : ∃ e ∈ rest, String.ofList e.name = name ∧
          ∃ r : AccessRights, String.ofList e.mask = r.mask
      · obtain ⟨r, before, e, after, rfl, hlast⟩ := ih hrest
        exact ⟨r, first :: before, e, after, rfl, hlast⟩
      · obtain ⟨e, hmem, hname, r, hmask⟩ := hsome
        rcases List.mem_cons.1 hmem with rfl | hlater
        · exact ⟨r, [], e, rest, rfl, hname, hmask, fun e' hmem' hname' r' hmask' =>
            hrest ⟨e', hmem', hname', r', hmask'⟩⟩
        · exact absurd ⟨e, hlater, hname, r, hmask⟩ hrest

theorem Right.lastManaged (hright : l.Right own name rights) : LastManaged l.entries name rights := by
  obtain ⟨e, hmem, hof, -⟩ := hright.listed
  obtain ⟨r, hlast⟩ := exists_lastManaged ⟨e, hmem, hof.2, rights, hright.only e hmem hof⟩
  have hsame : r = rights := by
    obtain ⟨before, e', after, hentries, hname, hmask, -⟩ := hlast
    have hmem' : e' ∈ l.entries := by simp [hentries]
    exact AccessRights.mask_injective _ _
      (hmask.symm.trans (hright.only e' hmem' (of_managed hname hmask)))
  exact hsame ▸ hlast

theorem lastManaged_iff (own : Option (List Char) → Prop) :
    LastManaged l.entries name rights ↔ l.Right own name rights ∨ l.Overlooks own name rights := by
  constructor
  · intro hlast
    by_cases hwrong : (∃ e ∈ l.entries, e.Of name ∧ String.ofList e.mask ≠ rights.mask) ∨
        ∀ e ∈ l.entries, e.Of name → ¬ own e.domain
    · exact .inr ⟨hlast, hwrong⟩
    · obtain ⟨hmasks, hforeign⟩ := not_or.1 hwrong
      refine .inl ⟨?_, fun e hmem hof => ?_⟩
      · by_contra hnone
        exact hforeign fun e hmem hof hown => hnone ⟨e, hmem, hof, hown⟩
      · by_contra hmask
        exact hmasks ⟨e, hmem, hof, hmask⟩
  · rintro (hright | hoverlooks)
    · exact hright.lastManaged
    · exact hoverlooks.last

theorem not_right_and_overlooks :
    ¬ (l.Right own name rights ∧ l.Overlooks own name rights) := by
  rintro ⟨hright, -, ⟨e, hmem, hof, hmask⟩ | hforeign⟩
  · exact hmask (hright.only e hmem hof)
  · obtain ⟨e, hmem, hof, hown⟩ := hright.listed
    exact hforeign e hmem hof hown

end Listing

/-! ## Grants with the access list editor -/

namespace AccessControl

open Run

variable {executable path name text : String} {limit : Number} {store : IdentityStore} {i : Identity}
  {rights : AccessRights} {h : Host}

/-- The start of the access list editor that sets an entry. -/
def editing (executable : String) (limit : Number) (path name : String) (rights : AccessRights) :
    Invocation :=
  ⟨[executable, path, "/grant:r", name ++ ":" ++ rights.mask, "/C"], some limit⟩

/-- The grant returns, and the entry was not set. -/
def Skips (executable : String) (limit : Number) (store : IdentityStore) (i : Identity)
    (path : String) (rights : AccessRights) (h : Host) : Prop :=
  ∃ g h' started, grant (.icacls executable limit) store i path rights h = .ok g h' ∧
    h'.journal.invocations = h.journal.invocations ++ started ∧
    editing executable limit path i.name rights ∉ started

/-- The grant gets to see a listing: the account exists, the path can be reached, and the editor
prints it. -/
def Sees (executable : String) (limit : Number) (store : IdentityStore) (i : Identity)
    (path : String) (h : Host) (text : String) : Prop :=
  ∃ i' h₁ out h₂, store.requireExisting i h = .ok i' h₁ ∧ Reachable h₁.tree path ∧
    runEditor executable limit [executable, path] path h₁ = .ok out h₂ ∧ out.stdout = text

theorem runEditor_eq_ok_iff {args : List String} {out : ProgramOutput} {h' : Host} :
    runEditor executable limit args path h = .ok out h' ↔
      command args (some limit) [] h = .ok out h' ∧ out.succeeded = true := by
  rw [runEditor, bind_apply_eq_ok_iff]
  constructor
  · rintro ⟨out', h₁, hmapped, hanswered⟩
    have hran := mapFault_eq_ok_iff.1 hmapped
    cases hsucceeded : out'.succeeded with
    | true =>
        rw [hsucceeded] at hanswered
        cases hanswered
        exact ⟨hran, hsucceeded⟩
    | false =>
        rw [hsucceeded] at hanswered
        cases hanswered
  · rintro ⟨hran, hsucceeded⟩
    refine ⟨out, h', mapFault_eq_ok_iff.2 hran, ?_⟩
    rw [hsucceeded]
    rfl

theorem invocations_of_runEditor {args : List String} {out : ProgramOutput} {h' : Host}
    (hran : runEditor executable limit (executable :: args) path h = .ok out h') :
    h'.journal.invocations = h.journal.invocations ++ [⟨executable :: args, some limit⟩] :=
  (of_command_ok (runEditor_eq_ok_iff.1 hran).1).2

/-- Setting an entry starts the editor for it. -/
theorem invocations_of_setEntry {h' : Host}
    (hset : setEntry (.icacls executable limit) path name rights h = .ok () h') :
    h'.journal.invocations =
      h.journal.invocations ++ [editing executable limit path name rights] := by
  rw [setEntry, note_bind] at hset
  obtain ⟨out, h₁, hran, hreturned⟩ := bind_apply_eq_ok_iff.1 hset
  cases hreturned
  have hstarted := invocations_of_runEditor hran
  simpa [editing, Host.noted, Journal.invocations, Journal.programRuns] using hstarted

/-- An account is asked about with three arguments at most. -/
theorem invocations_of_requireExisting {i' : Identity} {h' : Host}
    (hknown : store.requireExisting i h = .ok i' h') :
    ∃ started : List Invocation, h'.journal.invocations = h.journal.invocations ++ started ∧
      ∀ s ∈ started, s.args.length = 3 := by
  rw [IdentityStore.requireExisting] at hknown
  cases hpresent : i.present with
  | false =>
      rw [hpresent] at hknown
      cases hknown
  | true =>
      rw [hpresent, if_neg (by decide)] at hknown
      obtain ⟨known, h₁, hasked, hanswered⟩ := bind_apply_eq_ok_iff.1 hknown
      have hsame : h' = h₁ := by
        cases known with
        | true => cases hanswered; rfl
        | false => cases hanswered
      subst hsame
      cases store with
      | table =>
          cases hasked
          exact ⟨[], by simp, by simp⟩
      | posix =>
          cases hasked
          exact ⟨[], by simp, by simp⟩
      | netUser program bound =>
          obtain ⟨out, h₂, hran, hended⟩ := bind_apply_eq_ok_iff.1 hasked
          cases hended
          exact ⟨_, (of_command_ok hran).2, by simp⟩

/-- A grant is skipped exactly if the account is read to have the rights. -/
theorem skips_iff_of_sees (hsees : Sees executable limit store i path h text) :
    Skips executable limit store i path rights h ↔
      (readListing path text).get? i.name = some rights := by
  obtain ⟨i', h₁, out, h₂, hknown, hreach, hlisted, rfl⟩ := hsees
  have hentries : entries (.icacls executable limit) path h₁ = .ok (readListing path out.stdout) h₂ :=
    bind_apply_of_ok hlisted _
  obtain ⟨started, hstarted, hshort⟩ := invocations_of_requireExisting hknown
  have hbefore := invocations_of_runEditor hlisted
  rw [hstarted, List.append_assoc] at hbefore
  rw [Skips, grant_of_reachable hknown hreach, bind_apply_of_ok hentries, settle]
  by_cases hright : (readListing path out.stdout).get? i.name = some rights
  · rw [if_pos hright]
    refine iff_of_true ⟨_, _, _, rfl, (invocations_logged h₂ ..).trans hbefore, fun hmem => ?_⟩ hright
    -- what was started has fewer arguments than an edit
    rcases List.mem_append.1 hmem with hmem | hmem
    · exact absurd (hshort _ hmem) (by simp [editing])
    · simp [editing] at hmem
  · rw [if_neg hright]
    refine iff_of_false ?_ hright
    rintro ⟨g, h', started', hended, hafter, hnot⟩
    obtain ⟨_, h₃, hset, hreturned⟩ := bind_apply_eq_ok_iff.1 ((log_bind ..).symm.trans hended)
    cases hreturned
    rw [invocations_of_setEntry hset, invocations_logged, hbefore, List.append_assoc] at hafter
    rw [← List.append_cancel_left hafter] at hnot
    simp at hnot

/-- No grant is skipped unless a listing was seen. -/
theorem sees_of_skips (hskips : Skips executable limit store i path rights h) :
    ∃ text, Sees executable limit store i path h text := by
  obtain ⟨g, h', -, hended, -⟩ := hskips
  have hgets := grantGets_grant (.icacls executable limit) store i path rights h
  generalize grant (.icacls executable limit) store i path rights h = result at hended hgets
  cases hgets with
  | unconfirmed _ => cases hended
  | hidden _ _ => cases hended
  | absent _ _ => cases hended
  | settled hknown hreach =>
      obtain ⟨list, h₂, hlisted, -⟩ := bind_apply_eq_ok_iff.1 hended
      obtain ⟨out, h₃, hran, -⟩ := bind_apply_eq_ok_iff.1 hlisted
      exact ⟨_, _, _, out, h₃, hknown, hreach, hran, rfl⟩

/-- **Which grants are skipped.**  A grant is skipped only after a listing of the path was seen, and
then, whatever text that is, exactly if the account is read to have the rights.  Where the text is a
listing in print, and whatever domains are the account's own, it is skipped exactly if the listing is
right already, or is overlooked to be wrong; and it is never both. -/
theorem grant_skips_iff (executable : String) (limit : Number) (store : IdentityStore) (i : Identity)
    (path : String) (rights : AccessRights) (h : Host) :
    (Skips executable limit store i path rights h →
      ∃ text, Sees executable limit store i path h text) ∧
    (∀ text, Sees executable limit store i path h text →
      (Skips executable limit store i path rights h ↔
        (readListing path text).get? i.name = some rights)) ∧
    ∀ (l : Listing) (own : Option (List Char) → Prop),
      Sees executable limit store i path h (l.print path) → l.Told path.toList →
      (Skips executable limit store i path rights h ↔
        l.Right own i.name rights ∨ l.Overlooks own i.name rights) ∧
      ¬ (l.Right own i.name rights ∧ l.Overlooks own i.name rights) := by
  refine ⟨sees_of_skips, fun text => skips_iff_of_sees,
    fun l own hsees htold => ⟨?_, Listing.not_right_and_overlooks⟩⟩
  rw [skips_iff_of_sees hsees, l.get?_readListing_eq_some_iff htold]
  exact Listing.lastManaged_iff own

/-- An account may modify a directory. -/
def modifyEntry : ListedEntry where
  domain := some ['H', 'O', 'S', 'T']
  name := ['b', 'o', 'b']
  inside := ['M']
  named := by decide
  unqualified := by decide
  uncut := by decide
  solid := by decide
  oneLine := by decide

/-- The same account may read, write and create in it, and in what it holds. -/
def managedEntry : ListedEntry where
  domain := some ['H', 'O', 'S', 'T']
  name := ['b', 'o', 'b']
  inside := "OI)(CI)(RX,W".toList
  named := by decide
  unqualified := by decide
  uncut := by decide
  solid := by decide
  oneLine := by decide

/-- A listing of both. -/
def bobTwice : Listing where
  entries := [modifyEntry, managedEntry]
  indent := 5
  returns := false

/-- A host on which they are listed. -/
def bobsHost : Host where
  accounts := .ofNames ["bob"] "operator"
  tree := .ofRows [(Path.ofString "/srv", {})]
  programs _ _ tree := (.ok { stdout := bobTwice.print "/srv" }, tree)

theorem told_bobTwice : bobTwice.Told "/srv".toList :=
  ⟨by decide +kernel, by decide +kernel, by decide +kernel⟩

theorem sees_bobTwice (executable : String) (limit : Number) (hname : i.name = "bob")
    (hpresent : i.present = true) :
    Sees executable limit .table i "/srv" bobsHost (bobTwice.print "/srv") := by
  have hhas : bobsHost.accounts.has i.name = true := by
    rw [hname]
    decide +kernel
  have hreach : Reachable bobsHost.tree "/srv" :=
    reachable_iff.2 ⟨by decide +kernel, by decide +kernel⟩
  exact ⟨i, bobsHost, _, _, IdentityStore.requireExisting_of_has hpresent hhas, hreach,
    runEditor_eq_ok_iff.2 ⟨command_of_ok [] rfl, rfl⟩, rfl⟩

theorem modifyEntry_wrong : modifyEntry ∈ bobTwice.entries ∧ modifyEntry.Of "bob" ∧
    String.ofList modifyEntry.mask ≠ AccessRights.readWriteCreate.mask :=
  ⟨List.mem_cons_self, ⟨by decide +kernel, by decide +kernel⟩, by decide +kernel⟩

/-- The right to modify is left to the account, since its other entry is right. -/
theorem grant_skips_iff_bob :
    let i : Identity := { name := "bob", present := true, named := by decide }
    Sees "icacls" 60 .table i "/srv" bobsHost (bobTwice.print "/srv") ∧
      bobTwice.Told "/srv".toList ∧
      bobTwice.Overlooks (fun _ => True) "bob" .readWriteCreate ∧
      Skips "icacls" 60 .table i "/srv" .readWriteCreate bobsHost := by
  intro i
  have hsees : Sees "icacls" 60 .table i "/srv" bobsHost (bobTwice.print "/srv") :=
    sees_bobTwice _ _ rfl rfl
  have hoverlooks : bobTwice.Overlooks (fun _ => True) "bob" .readWriteCreate :=
    { last := ⟨[modifyEntry], managedEntry, [], rfl, by decide +kernel, by decide +kernel, by simp⟩
      wrong := .inl ⟨modifyEntry, modifyEntry_wrong⟩ }
  obtain ⟨-, -, hexact⟩ := grant_skips_iff "icacls" 60 .table i "/srv" .readWriteCreate bobsHost
  exact ⟨hsees, told_bobTwice, hoverlooks,
    (hexact bobTwice _ hsees told_bobTwice).1.2 (.inr hoverlooks)⟩

/-- Not every grant that is skipped finds the account with the rights that were asked for. -/
theorem not_always_right :
    ¬ ∀ (executable : String) (limit : Number) (store : IdentityStore) (i : Identity)
      (path : String) (rights : AccessRights) (h : Host) (l : Listing),
      Sees executable limit store i path h (l.print path) → l.Told path.toList →
      Skips executable limit store i path rights h → l.Right (fun _ => True) i.name rights := by
  intro hsound
  let i : Identity := { name := "bob", present := true, named := by decide }
  have hsees : Sees "icacls" 60 .table i "/srv" bobsHost (bobTwice.print "/srv") :=
    sees_bobTwice _ _ rfl rfl
  have hread : (readListing "/srv" (bobTwice.print "/srv")).get? "bob" = some .readWriteCreate := by
    decide +kernel
  have hright := hsound "icacls" 60 .table i "/srv" .readWriteCreate bobsHost bobTwice hsees
    told_bobTwice ((skips_iff_of_sees hsees).2 hread)
  exact modifyEntry_wrong.2.2 (hright.only modifyEntry modifyEntry_wrong.1 modifyEntry_wrong.2.1)

end AccessControl

end Provisioning
