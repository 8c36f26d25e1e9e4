/-
# `Provisioning.Proofs.Directory.Batch` — what a batch of grants comes to

On access lists kept in memory every path of a batch has its own fate, which
can be read off the host on which the batch begins: neither the order of the
paths, nor how often one occurs, nor what became of the others has a say.

    nothing at the path                          not found
    edits denied, and the entry is not right     permission denied
    anything else                                granted, the entry is right afterwards

The account may be of any database that vouches for it, and no path may hide
what is there.

**Stated here.**  Which paths are refused, how the batch ends, what is left of
the access lists and their edits, and that a batch of the same paths in another
order comes to the same (`batch_grants_exactly`).
-/
import Provisioning.Proofs.Directory.Table

namespace Provisioning

namespace AccessTable

/-- Two tables have the same entries, and lists for the same paths. -/
structure Alike (t t' : AccessTable) : Prop where
  lists : ∀ path, (t.lists.get? path).isSome = (t'.lists.get? path).isSome
  entries : ∀ path name, t.entry path name = t'.entry path name

/-- In which order a list of paths is offered an entry is of no consequence. -/
theorem alike_offerAll_of_perm (t : AccessTable) (name : String) (rights : AccessRights)
    {paths paths' : List String} (hperm : paths.Perm paths') :
    (t.offerAll name rights paths).Alike (t.offerAll name rights paths') where
  lists path := by simp only [isSome_lists_offerAll, hperm.mem_iff]
  entries path name' := by simp only [entry_offerAll, hperm.mem_iff]

end AccessTable

namespace AccessControl

open Run

variable {store : IdentityStore} {i : Identity} {rights : AccessRights} {h : Host} {tree : Tree}
  {t : AccessTable} {name path : String} {paths : List String} {r : Refusal}

/-! ## The fate of a path -/

/-- A path is refused because nothing is there, or because its entry is not right and cannot be made
right; there is no other reason. -/
theorem refusalOn_eq_some_iff :
    refusalOn tree t name rights path = some r ↔
      (tree.get? (Path.ofString path) = none ∧ r = missing path) ∨
      (tree.get? (Path.ofString path) ≠ none ∧ path ∈ t.denied ∧
        t.entry path name ≠ some rights ∧ r = denial path) := by
  unfold refusalOn
  cases tree.get? (Path.ofString path) with
  | none => simp [eq_comm]
  | some n =>
      by_cases hopen : t.Open name rights path
      · have hright : path ∈ t.denied → t.entry path name = some rights := hopen
        simpa [hopen] using fun hdenied hentry => absurd (hright hdenied) hentry
      · obtain ⟨hdenied, hentry⟩ := AccessTable.not_open_iff.1 hopen
        simp [hopen, hdenied, hentry, eq_comm]

theorem refusalOn_eq_none_iff :
    refusalOn tree t name rights path = none ↔
      (tree.get? (Path.ofString path)).isSome = true ∧ t.Open name rights path := by
  unfold refusalOn
  cases (tree.get? (Path.ofString path)).isSome with
  | false => simp
  | true => simp

/-- Each path that is not refused has the right entry afterwards, and no other entry is another. -/
theorem entry_offeredOn (tree : Tree) (t : AccessTable) (name : String) (rights : AccessRights)
    (paths : List String) (path name' : String) :
    (offeredOn tree t name rights paths).entry path name' =
      if path ∈ paths ∧ name' = name ∧ refusalOn tree t name rights path = none then some rights
      else t.entry path name' := by
  rw [offeredOn, AccessTable.entry_offerAll]
  simp only [List.mem_filter, refusalOn_eq_none_iff]
  by_cases hplace : path ∈ paths ∧ name' = name ∧
      (tree.get? (Path.ofString path)).isSome = true
  · obtain ⟨hmem, rfl, hthere⟩ := hplace
    by_cases hdenied : path ∈ t.denied
    · -- a denied path keeps its entry, which is right exactly if the path is open
      by_cases hentry : t.entry path name' = some rights
      · simp [hdenied, hentry]
      · have hclosed := AccessTable.not_open_iff.2 ⟨hdenied, hentry⟩
        simp [hdenied, hclosed]
    · have hopen : t.Open name' rights path := fun hd => absurd hd hdenied
      simp [hmem, hthere, hdenied, hopen]
  · rw [if_neg fun hset => hplace ⟨hset.1.1, hset.2.1, hset.1.2⟩,
      if_neg fun hset => hplace ⟨hset.1, hset.2.1, hset.2.2.1⟩]

/-! ## The batch -/

/-- How a batch ends that reports the given refusals: if there are none, with a grant for each of
its paths, in their order; and else with all of them in one refusal. -/
inductive BatchEnds (i : Identity) (rights : AccessRights) (paths : List String) :
    List Refusal → EStateM.Result Fault Host (List DirectoryGrant) → Prop where
  | granted {h' : Host} :
      BatchEnds i rights paths []
        (.ok (paths.map fun path => { identity := i, path, rights }) h')
  | refused {rs : List Refusal} {h' : Host} (hsome : rs ≠ []) :
      BatchEnds i rights paths rs (.error (.refused (Refusal.ofFailures none rs)) h')

/-- A batch reports each path that is refused, in order, and leaves everything but the access lists
and the journal as it was. -/
theorem batchEnds_grantAll (hvouches : store.Vouches i h) (rights : AccessRights)
    (hseen : ∀ path ∈ paths, ¬ h.tree.Hidden (Path.ofString path)) :
    BatchEnds i rights paths (paths.filterMap (refusalOn h.tree h.access i.name rights))
      (grantAll .table store i paths rights h) ∧
    ((grantAll .table store i paths rights).hostAfter h).aside =
      { h with access := offeredOn h.tree h.access i.name rights paths }.aside := by
  by_cases hnone : paths.filterMap (refusalOn h.tree h.access i.name rights) = []
  · obtain ⟨h', hended, hleft⟩ := gives_grantAll_of_vouches hvouches rights paths hseen
      (List.filterMap_eq_nil_iff.1 hnone) h rfl
    rw [hnone, hostAfter_of_ok hended, hended]
    exact ⟨.granted, hleft⟩
  · obtain ⟨e, h', hended, rfl, hleft⟩ := fails_grantAll_of_vouches hvouches rights paths hseen
      hnone h rfl
    rw [hostAfter_of_error hended, hended]
    exact ⟨.refused hnone, hleft⟩

theorem access_grantAll (hvouches : store.Vouches i h) (rights : AccessRights)
    (hseen : ∀ path ∈ paths, ¬ h.tree.Hidden (Path.ofString path)) :
    ((grantAll .table store i paths rights).hostAfter h).access =
      offeredOn h.tree h.access i.name rights paths :=
  congrArg Host.access (batchEnds_grantAll hvouches rights hseen).2

/-- **What a batch of grants comes to.**  A path is refused if nothing is there, or if edits of it
are denied and its entry is not right.  A batch without such paths returns a grant for each path, in
order, and any other reports one refusal for each of them, in order.  Either way the entries of the
account are right on the paths that are not refused, every other entry is what it was, each entry
that was not right is edited once, and nothing else is touched.  The same paths in another order come
to the same access lists and the same refusals. -/
theorem batch_grants_exactly (store : IdentityStore) (i : Identity) (rights : AccessRights)
    (h : Host) (paths : List String) (hvouches : store.Vouches i h)
    (hseen : ∀ path ∈ paths, ¬ h.tree.Hidden (Path.ofString path)) :
    let refusal := refusalOn h.tree h.access i.name rights
    let batch := fun paths => grantAll .table store i paths rights
    let h' := (batch paths).hostAfter h
    (∀ path r, refusal path = some r ↔
      (h.tree.get? (Path.ofString path) = none ∧ r = missing path) ∨
      (h.tree.get? (Path.ofString path) ≠ none ∧ path ∈ h.access.denied ∧
        h.access.entry path i.name ≠ some rights ∧ r = denial path)) ∧
    BatchEnds i rights paths (paths.filterMap refusal) (batch paths h) ∧
    (∀ path name, h'.access.entry path name =
      if path ∈ paths ∧ name = i.name ∧ refusal path = none then some rights
      else h.access.entry path name) ∧
    (∃ made : List String, made.Nodup ∧
      h'.access.edits = h.access.edits ++ made.map (⟨·, i.name, rights⟩) ∧
      ∀ path, path ∈ made ↔
        path ∈ paths ∧ refusal path = none ∧ h.access.entry path i.name ≠ some rights) ∧
    h'.aside = { h with access := h'.access }.aside ∧
    ∀ paths', paths.Perm paths' →
      BatchEnds i rights paths' (paths'.filterMap refusal) (batch paths' h) ∧
      (paths.filterMap refusal).Perm (paths'.filterMap refusal) ∧
      h'.access.Alike ((batch paths').hostAfter h).access := by
  intro refusal batch h'
  have hends := batchEnds_grantAll hvouches rights hseen
  have haccess : h'.access = offeredOn h.tree h.access i.name rights paths :=
    access_grantAll hvouches rights hseen
  refine ⟨fun path r => refusalOn_eq_some_iff, hends.1, fun path name => ?_, ?_, ?_,
    fun paths' hperm => ?_⟩
  · rw [haccess]
    exact entry_offeredOn h.tree h.access i.name rights paths path name
  · obtain ⟨made, hedits, hnodup, hmade⟩ := AccessTable.edits_offerAll h.access i.name rights
      (paths.filter fun path => (h.tree.get? (Path.ofString path)).isSome)
    refine ⟨made, hnodup, haccess ▸ hedits, fun path => (hmade path).trans ?_⟩
    rw [List.mem_filter, refusalOn_eq_none_iff]
    constructor
    · rintro ⟨⟨hmem, hthere⟩, hentry, hallowed⟩
      exact ⟨hmem, ⟨hthere, fun hdenied => absurd hdenied hallowed⟩, hentry⟩
    · rintro ⟨hmem, ⟨hthere, hopen⟩, hentry⟩
      exact ⟨⟨hmem, hthere⟩, hentry, fun hdenied => hentry (hopen hdenied)⟩
  · rw [haccess]
    exact hends.2
  · have hseen' : ∀ path ∈ paths', ¬ h.tree.Hidden (Path.ofString path) :=
      fun path hpath => hseen path (hperm.mem_iff.2 hpath)
    refine ⟨(batchEnds_grantAll hvouches rights hseen').1, hperm.filterMap refusal, ?_⟩
    rw [haccess, access_grantAll hvouches rights hseen']
    exact AccessTable.alike_offerAll_of_perm h.access i.name rights (hperm.filter _)

/-- Of four paths one is not there and one is denied.  The other denied path has the right entry
already. -/
theorem batch_grants_exactly_svc :
    let i : Identity := { name := "svc", present := true, named := by decide }
    let h : Host :=
      { accounts := .ofNames ["svc"] "operator"
        tree := .ofRows [(Path.ofString "/a", {}), (Path.ofString "/b", {}), (Path.ofString "/c", {})]
        access := { lists := .ofRows [("/c", .ofRows [("svc", .readWriteCreate)])],
                    denied := ["/b", "/c"] } }
    let paths := ["/b", "/missing", "/a", "/c", "/a"]
    let batch := grantAll .table .table i paths .readWriteCreate
    IdentityStore.table.Vouches i h ∧ (∀ path ∈ paths, ¬ h.tree.Hidden (Path.ofString path)) ∧
      BatchEnds i .readWriteCreate paths [denial "/b", missing "/missing"] (batch h) ∧
      (batch.hostAfter h).access.entry "/a" "svc" = some .readWriteCreate := by
  intro i h paths batch
  have hvouches : IdentityStore.table.Vouches i h := ⟨rfl, by decide +kernel⟩
  have hseen : ∀ path ∈ paths, ¬ h.tree.Hidden (Path.ofString path) := by decide +kernel
  let refusal := refusalOn h.tree h.access i.name .readWriteCreate
  have hdenied : refusal "/b" = some (denial "/b") :=
    refusalOn_eq_some_iff.2 (.inr ⟨by decide +kernel, by decide +kernel, by decide +kernel, rfl⟩)
  have hmissing : refusal "/missing" = some (missing "/missing") :=
    refusalOn_eq_some_iff.2 (.inl ⟨by decide +kernel, rfl⟩)
  have hgranted : ∀ path ∈ ["/a", "/c"], refusal path = none := by decide +kernel
  have hrefusals : paths.filterMap refusal = [denial "/b", missing "/missing"] := by
    simp [paths, hdenied, hmissing, hgranted]
  obtain ⟨-, hends, hentry, -⟩ :=
    batch_grants_exactly .table i .readWriteCreate h paths hvouches hseen
  exact ⟨hvouches, hseen, hrefusals ▸ hends,
    (hentry "/a" "svc").trans (if_pos ⟨by decide, rfl, hgranted "/a" (by decide)⟩)⟩

end AccessControl

end Provisioning
