/-
# `Provisioning.Proofs.Directory.Table` — access lists kept in memory, step by step

What granting directories makes of the table of access lists.  Every path of
the list at which there is something is offered its entry (`AccessTable.offer`):
the entry is set unless it is right already or edits of the path are denied.
Offering a path says nothing about the others, so what the whole list comes to
can be read off the first table (`entry_offerAll`), and so can which paths are
refused (`AccessControl.refusalOn`).
-/
import Provisioning.Proofs.Account.Vouched
import Provisioning.Proofs.Directory.Grant

namespace Provisioning

namespace AccessTable

/-! ## The table -/

/-- The rights that an account has on a path by an entry of its own. -/
def entry (t : AccessTable) (path name : String) : Option AccessRights := (t.entries path).get? name

/-- The table after an entry was offered on a path. -/
def offer (name : String) (rights : AccessRights) (t : AccessTable) (path : String) : AccessTable :=
  if t.entry path name = some rights ∨ path ∈ t.denied then t
  else { t.withEntry path name rights with edits := t.edits ++ [⟨path, name, rights⟩] }

/-- The table after an entry was offered on every path of a list. -/
def offerAll (t : AccessTable) (name : String) (rights : AccessRights) (paths : List String) :
    AccessTable :=
  paths.foldl (offer name rights) t

/-- Nothing keeps the entry of an account from being right on a path. -/
def Open (t : AccessTable) (name : String) (rights : AccessRights) (path : String) : Prop :=
  path ∈ t.denied → t.entry path name = some rights

instance (t : AccessTable) (name : String) (rights : AccessRights) (path : String) :
    Decidable (t.Open name rights path) :=
  inferInstanceAs (Decidable (path ∈ t.denied → t.entry path name = some rights))

/-- The paths of a list on which an entry cannot be made right. -/
def closed (t : AccessTable) (name : String) (rights : AccessRights) (paths : List String) :
    List String :=
  paths.filter fun path => ¬ t.Open name rights path

variable {t : AccessTable} {name name' path path' : String} {rights : AccessRights}

theorem offer_of_entry (h : t.entry path name = some rights) : offer name rights t path = t :=
  if_pos (.inl h)

theorem offer_of_denied (h : path ∈ t.denied) : offer name rights t path = t := if_pos (.inr h)

theorem setEntry_of_allowed (hentry : t.entry path name ≠ some rights)
    (hallowed : path ∉ t.denied) :
    t.setEntry path name rights = .ok (offer name rights t path) := by
  simp [setEntry, offer, hentry, hallowed]

@[simp] theorem denied_offer (t : AccessTable) (name : String) (rights : AccessRights)
    (path : String) : (offer name rights t path).denied = t.denied := by
  unfold offer
  split <;> rfl

/-- An offer sets one entry, unless it is denied, and no other. -/
theorem entry_offer (t : AccessTable) (name : String) (rights : AccessRights)
    (path path' name' : String) :
    (offer name rights t path).entry path' name' =
      if path' = path ∧ name' = name ∧ path ∉ t.denied then some rights
      else t.entry path' name' := by
  unfold offer
  split
  · rename_i hkept
    split
    · rename_i hset
      obtain ⟨rfl, rfl, hallowed⟩ := hset
      exact hkept.resolve_right hallowed
    · rfl
  · rename_i hset
    have hallowed : path ∉ t.denied := fun h => hset (.inr h)
    have hview := get?_entries_withEntry t path name rights path' name'
    simp only [entry, entries] at hview ⊢
    rw [hview]
    simp only [hallowed, not_false_eq_true, and_true, eq_comm]

theorem isSome_lists_of_entry (h : t.entry path name = some rights) :
    (t.lists.get? path).isSome = true := by
  cases hlist : t.lists.get? path with
  | some list => rfl
  | none => simp [entry, entries, hlist] at h

theorem isSome_lists_offer (t : AccessTable) (name : String) (rights : AccessRights)
    (path path' : String) :
    ((offer name rights t path).lists.get? path').isSome =
      ((t.lists.get? path').isSome || decide (path' = path ∧ path ∉ t.denied)) := by
  unfold offer
  split
  · rename_i hkept
    by_cases hset : path' = path ∧ path ∉ t.denied
    · obtain ⟨rfl, hallowed⟩ := hset
      rw [isSome_lists_of_entry (hkept.resolve_right hallowed)]
      rfl
    · simp [hset]
  · rename_i hset
    have hallowed : path ∉ t.denied := fun h => hset (.inr h)
    by_cases hpath : path = path'
    · subst hpath
      simp [withEntry, hallowed]
    · simp [withEntry, Table.get?_put_of_ne _ hpath, Ne.symm hpath]

@[simp] theorem denied_offerAll (t : AccessTable) (name : String) (rights : AccessRights)
    (paths : List String) : (t.offerAll name rights paths).denied = t.denied := by
  induction paths generalizing t with
  | nil => rfl
  | cons path rest ih => rw [offerAll, List.foldl_cons, ← offerAll, ih, denied_offer]

theorem entry_offerAll (t : AccessTable) (name : String) (rights : AccessRights)
    (paths : List String) (path' name' : String) :
    (t.offerAll name rights paths).entry path' name' =
      if path' ∈ paths ∧ name' = name ∧ path' ∉ t.denied then some rights
      else t.entry path' name' := by
  induction paths generalizing t with
  | nil => simp [offerAll]
  | cons path rest ih =>
      rw [offerAll, List.foldl_cons, ← offerAll, ih, denied_offer, entry_offer]
      by_cases hrest : path' ∈ rest ∧ name' = name ∧ path' ∉ t.denied
      · simp [hrest]
      · rw [if_neg hrest]
        by_cases hfirst : path' = path ∧ name' = name ∧ path ∉ t.denied
        · obtain ⟨rfl, rfl, hallowed⟩ := hfirst
          simp [hallowed]
        · rw [if_neg hfirst, if_neg]
          rintro ⟨hmem, hname, hallowed⟩
          rcases List.mem_cons.1 hmem with rfl | hmem
          · exact hfirst ⟨rfl, hname, hallowed⟩
          · exact hrest ⟨hmem, hname, hallowed⟩

theorem isSome_lists_offerAll (t : AccessTable) (name : String) (rights : AccessRights)
    (paths : List String) (path' : String) :
    ((t.offerAll name rights paths).lists.get? path').isSome =
      ((t.lists.get? path').isSome || decide (path' ∈ paths ∧ path' ∉ t.denied)) := by
  induction paths generalizing t with
  | nil => simp [offerAll]
  | cons path rest ih =>
      rw [offerAll, List.foldl_cons, ← offerAll, ih, denied_offer, isSome_lists_offer]
      by_cases hpath : path' = path
      · subst hpath
        by_cases hallowed : path' ∈ t.denied <;> simp [hallowed]
      · simp [hpath]

/-- Each entry that was not right, and may be edited, is edited once. -/
theorem edits_offerAll (t : AccessTable) (name : String) (rights : AccessRights)
    (paths : List String) :
    ∃ made : List String,
      (t.offerAll name rights paths).edits = t.edits ++ made.map (⟨·, name, rights⟩) ∧
      made.Nodup ∧ ∀ path, path ∈ made ↔
        path ∈ paths ∧ t.entry path name ≠ some rights ∧ path ∉ t.denied := by
  induction paths generalizing t with
  | nil => exact ⟨[], by simp [offerAll], List.nodup_nil, by simp⟩
  | cons path rest ih =>
      obtain ⟨made, hedits, hnodup, hmem⟩ := ih (offer name rights t path)
      rw [offerAll, List.foldl_cons, ← offerAll, hedits]
      by_cases hkept : t.entry path name = some rights ∨ path ∈ t.denied
      · have hsame : offer name rights t path = t := if_pos hkept
        rw [hsame] at hmem ⊢
        refine ⟨made, rfl, hnodup, fun p => (hmem p).trans ?_⟩
        have hpath : p = path → ¬ (t.entry p name ≠ some rights ∧ p ∉ t.denied) := by
          rintro rfl ⟨hentry, hallowed⟩
          exact hkept.elim hentry hallowed
        rw [List.mem_cons]
        constructor
        · exact fun h => ⟨.inr h.1, h.2⟩
        · exact fun h => ⟨h.1.resolve_left fun hp => hpath hp h.2, h.2⟩
      · obtain ⟨hentry, hallowed⟩ := not_or.1 hkept
        have hset : (offer name rights t path).edits = t.edits ++ [⟨path, name, rights⟩] := by
          rw [offer, if_neg hkept]
        -- once set, the entry is right and will not be edited again
        simp only [entry_offer, denied_offer] at hmem
        refine ⟨path :: made, by rw [hset]; simp, List.nodup_cons.2 ⟨?_, hnodup⟩, fun p => ?_⟩
        · rw [hmem]
          simp [hallowed]
        · rw [List.mem_cons, List.mem_cons, hmem]
          by_cases hp : p = path
          · subst hp
            simp [hentry, hallowed]
          · simp [hp]

/-- Where every entry is right already, offering them does nothing. -/
theorem offerAll_of_entries {paths : List String}
    (h : ∀ path ∈ paths, t.entry path name = some rights) : t.offerAll name rights paths = t := by
  induction paths with
  | nil => rfl
  | cons path rest ih =>
      rw [offerAll, List.foldl_cons, offer_of_entry (h path List.mem_cons_self)]
      exact ih fun p hp => h p (List.mem_cons_of_mem _ hp)

/-- Whether a path is open does not depend on what was offered on others. -/
theorem open_offer_iff :
    (offer name rights t path).Open name rights path' ↔ t.Open name rights path' := by
  unfold Open
  rw [denied_offer, entry_offer]
  constructor <;> intro hopen hdenied
  · have hentry := hopen hdenied
    rwa [if_neg fun h => h.2.2 (h.1 ▸ hdenied)] at hentry
  · rw [if_neg fun h => h.2.2 (h.1 ▸ hdenied)]
    exact hopen hdenied

theorem closed_cons_of_open (h : t.Open name rights path) (paths : List String) :
    t.closed name rights (path :: paths) = t.closed name rights paths :=
  List.filter_cons_of_neg (by simpa using h)

theorem closed_cons_of_not_open (h : ¬ t.Open name rights path) (paths : List String) :
    t.closed name rights (path :: paths) = path :: t.closed name rights paths :=
  List.filter_cons_of_pos (by simpa using h)

theorem mem_closed {paths : List String} :
    path ∈ t.closed name rights paths ↔ path ∈ paths ∧ ¬ t.Open name rights path := by
  simp [closed]

theorem not_open_iff :
    ¬ t.Open name rights path ↔ path ∈ t.denied ∧ t.entry path name ≠ some rights := by
  simp [Open]

theorem closed_eq_nil_iff {paths : List String} :
    t.closed name rights paths = [] ↔ ∀ path ∈ paths, t.Open name rights path := by
  simp [closed]

end AccessTable

/-! ## The steps -/

namespace AccessControl

open Run

variable {store : IdentityStore} {S : Stores} {i : Identity} {rights : AccessRights} {h : Host}
  {tree : Tree} {path : String}

theorem gives_pathExists (hreach : Reachable S.tree path) :
    Gives Host.stores (pathExists (Path.ofString path)) S true S := by
  refine gives_of_look fun x hx => ?_
  subst hx
  obtain ⟨hnot, hthere⟩ := reachable_iff.1 hreach
  rw [pathExists_of_not_hidden hnot]
  exact congrArg (EStateM.Result.ok · x) hthere

/-! ### One path -/

/-- What a denied edit is refused with. -/
def denial (path : String) : Refusal :=
  Refusal.because .permissionDenied ("Access denied while editing the ACL of " ++ path)
    [("path", .text path)]

/-- What a grant on a path is refused with, if it is refused: there is nothing at the path, or its
entry is not right and may not be set. -/
def refusalOn (tree : Tree) (t : AccessTable) (name : String) (rights : AccessRights)
    (path : String) : Option Refusal :=
  if (tree.get? (Path.ofString path)).isSome then
    if t.Open name rights path then none else some (denial path)
  else some (missing path)

/-- The table after a grant on a path, whatever became of it. -/
def offerOn (tree : Tree) (name : String) (rights : AccessRights) (t : AccessTable)
    (path : String) : AccessTable :=
  if (tree.get? (Path.ofString path)).isSome then t.offer name rights path else t

/-- Whether a path is refused does not depend on what became of the others. -/
@[simp] theorem refusalOn_offerOn (tree : Tree) (t : AccessTable) (name : String)
    (rights : AccessRights) (path : String) :
    refusalOn tree (offerOn tree name rights t path) name rights =
      refusalOn tree t name rights := by
  funext path'
  unfold offerOn
  split <;> simp [refusalOn, AccessTable.open_offer_iff]

/-- The host with other access lists, aside from its journal. -/
theorem aside_withAccess {x : Host} (hx : x.aside = h.aside) (access : AccessTable) :
    { x with access }.aside = { h with access }.aside :=
  congrArg (fun y : Host => { y with access }) hx

/-- A path is looked for where that is not refused. -/
theorem gives_pathExists_of_not_hidden (hseen : ¬ h.tree.Hidden (Path.ofString path)) :
    Gives Host.aside (pathExists (Path.ofString path)) h.aside
      (h.tree.get? (Path.ofString path)).isSome h.aside := by
  refine gives_of_look fun x hx => ?_
  rw [← Host.eq_of_aside hx Host.tree] at hseen ⊢
  exact pathExists_of_not_hidden hseen

theorem gives_entries (h : Host) (path : String) :
    Gives Host.aside (entries .table path) h.aside (h.access.entries path) h.aside := by
  refine gives_get_bind fun x hx => ?_
  rw [Host.eq_of_aside hx Host.access]
  exact gives_pure _ _

theorem gives_setEntry {name : String} (hentry : h.access.entry path name ≠ some rights)
    (hallowed : path ∉ h.access.denied) :
    Gives Host.aside (setEntry .table path name rights) h.aside ()
      { h with access := h.access.offer name rights path }.aside := by
  refine (gives_note _).bind (gives_get_bind fun x hx => ?_)
  rw [Host.eq_of_aside hx Host.access]
  exact (gives_ofExcept (AccessTable.setEntry_of_allowed hentry hallowed)).bind
    (gives_modify fun y hy => aside_withAccess hy _)

theorem fails_setEntry {name : String} (hdenied : path ∈ h.access.denied) :
    Fails Host.aside (setEntry .table path name rights) h.aside (· = .refused (denial path))
      h.aside := by
  refine (gives_note _).bind_fails (fails_get_bind fun x hx => ?_)
  rw [Host.eq_of_aside hx Host.access]
  have hmem : h.access.denied.contains path = true := List.contains_iff_mem.2 hdenied
  have hrefused : h.access.setEntry path name rights = .error (.refused (denial path)) := by
    rw [AccessTable.setEntry, if_pos hmem]
    rfl
  exact (fails_ofExcept hrefused).bind _

/-- A path that nothing keeps from being granted is offered its entry. -/
theorem gives_grant (hvouches : store.Vouches i h) (hseen : ¬ h.tree.Hidden (Path.ofString path))
    (hthere : (h.tree.get? (Path.ofString path)).isSome = true)
    (hopen : h.access.Open i.name rights path) :
    Gives Host.aside (grant .table store i path rights) h.aside { identity := i, path, rights }
      { h with access := h.access.offer i.name rights path }.aside := by
  refine (IdentityStore.gives_requireExisting_of_vouches hvouches).bind
    ((gives_pathExists_of_not_hidden hseen).bind
      (Gives.ite_neg (by simp [hthere]) ((gives_entries h path).bind ?_)))
  by_cases hentry : h.access.entry path i.name = some rights
  · rw [AccessTable.offer_of_entry hentry]
    exact Gives.ite_pos hentry ((gives_log _ _ _).bind (gives_pure _ _))
  · have hallowed : path ∉ h.access.denied := fun hdenied => hentry (hopen hdenied)
    exact Gives.ite_neg hentry ((gives_log _ _ _).bind
      ((gives_setEntry hentry hallowed).bind (gives_pure _ _)))

/-- A path with nothing at it is refused. -/
theorem fails_grant_of_absent (hvouches : store.Vouches i h)
    (hseen : ¬ h.tree.Hidden (Path.ofString path))
    (habsent : (h.tree.get? (Path.ofString path)).isSome = false) :
    Fails Host.aside (grant .table store i path rights) h.aside (· = .refused (missing path))
      h.aside :=
  (IdentityStore.gives_requireExisting_of_vouches hvouches).bind_fails
    ((gives_pathExists_of_not_hidden hseen).bind_fails
      (Fails.ite_pos (by simp [habsent]) (fails_throw_self _ _)))

/-- A path that is not open is refused, and stays as it is. -/
theorem fails_grant_of_closed (hvouches : store.Vouches i h)
    (hseen : ¬ h.tree.Hidden (Path.ofString path))
    (hthere : (h.tree.get? (Path.ofString path)).isSome = true)
    (hclosed : ¬ h.access.Open i.name rights path) :
    Fails Host.aside (grant .table store i path rights) h.aside (· = .refused (denial path))
      { h with access := h.access.offer i.name rights path }.aside := by
  obtain ⟨hdenied, hentry⟩ := AccessTable.not_open_iff.1 hclosed
  rw [AccessTable.offer_of_denied hdenied]
  exact (IdentityStore.gives_requireExisting_of_vouches hvouches).bind_fails
    ((gives_pathExists_of_not_hidden hseen).bind_fails
      (Fails.ite_neg (by simp [hthere]) ((gives_entries h path).bind_fails
        (Fails.ite_neg hentry ((gives_log _ _ _).bind_fails ((fails_setEntry hdenied).bind _))))))

/-- The grant that is made on a path, or what it is refused with. -/
def outcomeOn (tree : Tree) (t : AccessTable) (i : Identity) (rights : AccessRights)
    (path : String) : Except Refusal DirectoryGrant :=
  match refusalOn tree t i.name rights path with
  | none => .ok { identity := i, path, rights }
  | some r => .error r

/-- How a grant on any path ends that may be looked for. -/
theorem gives_catchRefusal_grant (hvouches : store.Vouches i h) (rights : AccessRights)
    (hseen : ¬ h.tree.Hidden (Path.ofString path)) :
    Gives Host.aside (catchRefusal (grant .table store i path rights)) h.aside
      (outcomeOn h.tree h.access i rights path)
      { h with access := offerOn h.tree i.name rights h.access path }.aside := by
  unfold outcomeOn refusalOn offerOn
  cases hthere : (h.tree.get? (Path.ofString path)).isSome with
  | false => exact gives_catchRefusal_of_fails (fails_grant_of_absent hvouches hseen hthere)
  | true =>
      by_cases hopen : h.access.Open i.name rights path
      · simp only [if_true, if_pos hopen]
        exact gives_catchRefusal (gives_grant hvouches hseen hthere hopen)
      · simp only [if_true, if_neg hopen]
        exact gives_catchRefusal_of_fails (fails_grant_of_closed hvouches hseen hthere hopen)

/-! ### Several paths -/

/-- What attempts on the paths of a list come to: those that are not refused are granted, in order,
and the others are reported. -/
def grantResults (tree : Tree) (t : AccessTable) (i : Identity) (rights : AccessRights)
    (paths : List String) : GrantResults where
  granted := (paths.filter fun path => refusalOn tree t i.name rights path = none).map fun path =>
    { identity := i, path, rights }
  failures := paths.filterMap (refusalOn tree t i.name rights)

/-- The table after attempts on the paths of a list: those that are there were offered the entry. -/
def offeredOn (tree : Tree) (t : AccessTable) (name : String) (rights : AccessRights)
    (paths : List String) : AccessTable :=
  t.offerAll name rights (paths.filter fun path => (tree.get? (Path.ofString path)).isSome)

theorem offeredOn_cons (tree : Tree) (t : AccessTable) (name : String) (rights : AccessRights)
    (path : String) (rest : List String) :
    offeredOn tree t name rights (path :: rest) =
      offeredOn tree (offerOn tree name rights t path) name rights rest := by
  rw [offeredOn, offeredOn, offerOn, List.filter_cons]
  split <;> rfl

/-- Every path is attempted, whatever became of the others. -/
theorem gives_attemptAll (hvouches : store.Vouches i h) (rights : AccessRights)
    (paths : List String) (hseen : ∀ path ∈ paths, ¬ h.tree.Hidden (Path.ofString path)) :
    Gives Host.aside (attemptAll .table store i rights paths) h.aside
      (grantResults h.tree h.access i rights paths)
      { h with access := offeredOn h.tree h.access i.name rights paths }.aside := by
  induction paths generalizing h with
  | nil => exact gives_pure _ _
  | cons path rest ih =>
      have hfirst := gives_catchRefusal_grant hvouches rights (hseen path List.mem_cons_self)
      have hrest := ih (h := { h with access := offerOn h.tree i.name rights h.access path })
        (hvouches.withAccess _) fun p hp => hseen p (List.mem_cons_of_mem _ hp)
      rw [offeredOn_cons]
      cases hrefusal : refusalOn h.tree h.access i.name rights path with
      | none =>
          rw [outcomeOn, hrefusal] at hfirst
          have hresults : grantResults h.tree h.access i rights (path :: rest) =
              { grantResults h.tree (offerOn h.tree i.name rights h.access path) i rights rest with
                granted := { identity := i, path, rights } ::
                  (grantResults h.tree (offerOn h.tree i.name rights h.access path) i rights
                    rest).granted } := by
            simp [grantResults, hrefusal]
          rw [hresults]
          exact hfirst.bind (hrest.bind (gives_pure _ _))
      | some r =>
          rw [outcomeOn, hrefusal] at hfirst
          have hresults : grantResults h.tree h.access i rights (path :: rest) =
              { grantResults h.tree (offerOn h.tree i.name rights h.access path) i rights rest with
                failures := r ::
                  (grantResults h.tree (offerOn h.tree i.name rights h.access path) i rights
                    rest).failures } := by
            simp [grantResults, hrefusal]
          rw [hresults]
          exact hfirst.bind ((gives_log _ _ _).bind (hrest.bind (gives_pure _ _)))

/-- A batch of which no path is refused returns a grant for each. -/
theorem gives_grantAll_of_vouches (hvouches : store.Vouches i h) (rights : AccessRights)
    (paths : List String) (hseen : ∀ path ∈ paths, ¬ h.tree.Hidden (Path.ofString path))
    (hnone : ∀ path ∈ paths, refusalOn h.tree h.access i.name rights path = none) :
    Gives Host.aside (grantAll .table store i paths rights) h.aside
      (paths.map fun path => { identity := i, path, rights })
      { h with access := offeredOn h.tree h.access i.name rights paths }.aside := by
  have hgranted : (grantResults h.tree h.access i rights paths).granted =
      paths.map fun path => { identity := i, path, rights } := by
    rw [grantResults, List.filter_eq_self.2 fun path hpath => decide_eq_true (hnone path hpath)]
  have hfailures : (grantResults h.tree h.access i rights paths).failures.isEmpty = true := by
    rw [grantResults, List.filterMap_eq_nil_iff.2 hnone]
    rfl
  rw [← hgranted]
  exact (IdentityStore.gives_requireExisting_of_vouches hvouches).bind
    ((gives_attemptAll hvouches rights paths hseen).bind
      (Gives.ite_pos hfailures (gives_pure _ _)))

/-- A batch of which some paths are refused grants the others all the same, and reports each. -/
theorem fails_grantAll_of_vouches (hvouches : store.Vouches i h) (rights : AccessRights)
    (paths : List String) (hseen : ∀ path ∈ paths, ¬ h.tree.Hidden (Path.ofString path))
    (hsome : paths.filterMap (refusalOn h.tree h.access i.name rights) ≠ []) :
    Fails Host.aside (grantAll .table store i paths rights) h.aside
      (· = .refused (Refusal.ofFailures none
        (paths.filterMap (refusalOn h.tree h.access i.name rights))))
      { h with access := offeredOn h.tree h.access i.name rights paths }.aside := by
  have hfailures : ¬ (grantResults h.tree h.access i rights paths).failures.isEmpty = true := by
    simpa [grantResults, List.isEmpty_iff] using hsome
  exact (IdentityStore.gives_requireExisting_of_vouches hvouches).bind_fails
    ((gives_attemptAll hvouches rights paths hseen).bind_fails
      (Fails.ite_neg hfailures (fails_throw_self _ _)))

/-! ### Where every path can be reached -/

theorem refusalOn_of_reachable (hreach : Reachable tree path) (t : AccessTable) (name : String)
    (rights : AccessRights) :
    refusalOn tree t name rights path =
      if t.Open name rights path then none else some (denial path) :=
  if_pos (reachable_iff.1 hreach).2

theorem offeredOn_of_reachable {paths : List String} (hreach : ∀ path ∈ paths, Reachable tree path)
    (t : AccessTable) (name : String) (rights : AccessRights) :
    offeredOn tree t name rights paths = t.offerAll name rights paths := by
  rw [offeredOn, List.filter_eq_self.2 fun path hpath => (reachable_iff.1 (hreach path hpath)).2]

/-- What a grant of several paths is refused with when some are closed. -/
def denials (failed : List String) : Refusal := Refusal.ofFailures none (failed.map denial)

theorem refusals_of_reachable {paths : List String} (hreach : ∀ path ∈ paths, Reachable tree path)
    (t : AccessTable) (name : String) (rights : AccessRights) :
    paths.filterMap (refusalOn tree t name rights) = (t.closed name rights paths).map denial := by
  induction paths with
  | nil => rfl
  | cons path rest ih =>
      have hrest := ih fun p hp => hreach p (List.mem_cons_of_mem _ hp)
      have hfirst := refusalOn_of_reachable (hreach path List.mem_cons_self) t name rights
      by_cases hopen : t.Open name rights path
      · rw [if_pos hopen] at hfirst
        rw [List.filterMap_cons_none hfirst, hrest, AccessTable.closed_cons_of_open hopen]
      · rw [if_neg hopen] at hfirst
        rw [List.filterMap_cons_some hfirst, hrest, AccessTable.closed_cons_of_not_open hopen]
        rfl

theorem gives_grantAll (rights : AccessRights) (paths : List String) (hpresent : i.present = true)
    (hhas : S.accounts.has i.name = true) (hreach : ∀ path ∈ paths, Reachable S.tree path)
    (hopen : ∀ path ∈ paths, S.access.Open i.name rights path) :
    Gives Host.stores (grantAll .table .table i paths rights) S
      (paths.map fun path => { identity := i, path, rights })
      { S with access := S.access.offerAll i.name rights paths } := by
  refine Gives.stores fun h hS => ?_
  subst hS
  replace hreach : ∀ path ∈ paths, Reachable h.tree path := hreach
  have hnone : ∀ path ∈ paths, refusalOn h.tree h.access i.name rights path = none :=
    fun path hpath =>
      (refusalOn_of_reachable (hreach path hpath) _ _ _).trans (if_pos (hopen path hpath))
  refine ⟨_, gives_grantAll_of_vouches ⟨hpresent, hhas⟩ rights paths
    (fun path hpath => (reachable_iff.1 (hreach path hpath)).1) hnone, ?_⟩
  rw [offeredOn_of_reachable hreach]
  rfl

/-- When a path is not open the others are granted all the same, and the failure is one of
changes. -/
theorem fails_grantAll (rights : AccessRights) (paths : List String) (hpresent : i.present = true)
    (hhas : S.accounts.has i.name = true) (hreach : ∀ path ∈ paths, Reachable S.tree path)
    (hclosed : ¬ ∀ path ∈ paths, S.access.Open i.name rights path) :
    Fails Host.stores (grantAll .table .table i paths rights) S
      (· = .refused (denials (S.access.closed i.name rights paths)))
      { S with access := S.access.offerAll i.name rights paths } := by
  refine Fails.stores fun h hS => ?_
  subst hS
  replace hreach : ∀ path ∈ paths, Reachable h.tree path := hreach
  have hvouches : IdentityStore.table.Vouches i h := ⟨hpresent, hhas⟩
  have hrefusals := refusals_of_reachable hreach h.access i.name rights
  have hsome : (h.access.closed i.name rights paths).map denial ≠ [] := by
    rw [Ne, List.map_eq_nil_iff, AccessTable.closed_eq_nil_iff]
    exact hclosed
  have hfails := fails_grantAll_of_vouches hvouches rights paths
    (fun path hpath => (reachable_iff.1 (hreach path hpath)).1) (hrefusals ▸ hsome)
  rw [hrefusals, offeredOn_of_reachable hreach] at hfails
  exact ⟨_, hfails, rfl⟩

end AccessControl

end Provisioning
