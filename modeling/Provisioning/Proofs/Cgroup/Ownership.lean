/-
# `Provisioning.Proofs.Cgroup.Ownership` — giving a subtree away

A direct call gives a path away, and then what a walk from it meets, one entry
after the other.  It stops at the first entry that may not be given away
(`Tree.Withheld`), and does not take back what it gave before.

    the owner         within the path         given away            answer
    has no number                             nothing               unknown identity
    has a number      an entry is withheld    what was met before   permission denied
    has a number      none is withheld        everything            done

**Stated here.**  The three ways exactly, with the host that each leaves
(`OwnerEnds`).  In a tree whose entries are held by directories what a call
that returns gave away is the subtree, each entry of it once, and a call that
does not return leaves everything outside as it was
(`directChangeOwner_gives_subtree`).
-/
import Provisioning.Proofs.Cgroup.Backends
import Provisioning.Proofs.Host.Subtree

namespace Provisioning

open Run

namespace Tree

variable {t : Tree} {p q : Path}

/-- There is an entry at a path, and it may not be given away. -/
def Withheld (t : Tree) (q : Path) : Prop := ∃ n, t.get? q = some n ∧ n.denies.chown = true

instance (t : Tree) (q : Path) : Decidable (t.Withheld q) :=
  decidable_of_iff ((t.get? q).any fun n => n.denies.chown) (Option.any_eq_true _ _)

theorem Withheld.not_givable (hwithheld : t.Withheld q) : ¬ t.Givable q := by
  obtain ⟨n, hthere, hdenied⟩ := hwithheld
  rintro ⟨m, hm, hallowed⟩
  rw [hthere] at hm
  cases hm
  rw [hdenied] at hallowed
  cases hallowed

theorem givable_of_not_withheld (hsome : (t.get? q).isSome = true) (hnot : ¬ t.Withheld q) :
    t.Givable q := by
  obtain ⟨n, hthere⟩ := Option.isSome_iff_exists.1 hsome
  refine ⟨n, hthere, Bool.eq_false_iff.2 fun hdenied => hnot ⟨n, hthere, hdenied⟩⟩

/-- Among entries not all of which may be given away there is a first that may not. -/
theorem exists_first_withheld {qs : List Path} (hsome : ∀ q ∈ qs, (t.get? q).isSome = true)
    (hnot : ¬ ∀ q ∈ qs, t.Givable q) :
    ∃ given q rest, qs = given ++ q :: rest ∧ (∀ r ∈ given, t.Givable r) ∧ t.Withheld q := by
  cases hfind : qs.find? fun q => decide (t.Withheld q) with
  | none =>
      refine absurd (fun q hq => givable_of_not_withheld (hsome q hq) ?_) hnot
      simpa using List.find?_eq_none.1 hfind q hq
  | some q =>
      obtain ⟨hwithheld, given, rest, hqs, hbefore⟩ := List.find?_eq_some_iff_append.1 hfind
      refine ⟨given, q, rest, hqs, fun r hr => ?_, of_decide_eq_true hwithheld⟩
      exact givable_of_not_withheld (hsome r (hqs ▸ List.mem_append_left _ hr))
        (by simpa using hbefore r hr)

end Tree

/-- The host on which the entries of a list were given to a user, on the way from `start`. -/
def Host.givenAll (h : Host) (start : Path) (uid : Int) (qs : List Path) : Host :=
  { h with
    tree := h.tree.giveAll uid qs
    journal := h.journal ++ qs.map fun q => .chowned start q uid }

namespace CgroupFilesystem

variable {path q : Path} {owner : String} {uid : Int} {h h' : Host}

/-! ## Where giving away stops -/

/-- Entries that may be given away are, and the rest of the list is next. -/
theorem chownEach_append (start : Path) (uid : Int) (rest : List Path) :
    ∀ {qs : List Path} {h : Host}, (∀ q ∈ qs, h.tree.Givable q) →
      chownEach start uid (qs ++ rest) h = chownEach start uid rest (h.givenAll start uid qs) := by
  intro qs
  induction qs with
  | nil =>
      intro h _
      rw [Host.givenAll, List.map_nil, List.append_nil]
      rfl
  | cons q qs ih =>
      intro h hall
      have hrest : ∀ r ∈ qs, (h.tree.give uid q).Givable r := fun r hr =>
        (h.tree.givable_give uid q r).2 (hall r (List.mem_cons_of_mem _ hr))
      rw [List.cons_append, chownEach,
        bind_apply_of_ok (chown_of_givable start uid (hall q List.mem_cons_self)), ih hrest]
      simp only [Host.givenAll, List.map_cons, List.append_assoc, List.singleton_append]
      rfl

theorem chown_of_withheld (start : Path) (uid : Int) (hwithheld : h.tree.Withheld q) :
    chown start q uid h = .error (.system (.about SystemError.notPermitted q.toString)) h := by
  obtain ⟨n, hthere, hdenied⟩ := hwithheld
  unfold chown Tree.chown
  rw [hthere]
  simp [hdenied]

/-- All that a path reaches may be given away, and is. -/
theorem directChangeOwner_of_givable (hnumber : h.passwd.lookup owner = some uid)
    (hall : ∀ q ∈ h.tree.reach path, h.tree.Givable q) :
    directChangeOwner path owner h = .ok () (h.givenAll path uid (h.tree.reach path)) := by
  have hgiven := chownEach_append path uid [] hall
  rw [List.append_nil] at hgiven
  rw [directChangeOwner_of_numbered path hnumber]
  exact mapFault_eq_ok_iff.2 hgiven

/-- The first entry that may not be given away stops it. -/
theorem directChangeOwner_of_withheld {given rest : List Path}
    (hnumber : h.passwd.lookup owner = some uid) (hreach : h.tree.reach path = given ++ q :: rest)
    (hbefore : ∀ r ∈ given, h.tree.Givable r) (hwithheld : h.tree.Withheld q) :
    directChangeOwner path owner h =
      .error (ownerDenied path owner (.about SystemError.notPermitted q.toString))
        (h.givenAll path uid given) := by
  -- it is withheld still, since giving an entry away changes only to whom it belongs
  have hstill : (h.givenAll path uid given).tree.Withheld q := by
    obtain ⟨n, hthere, hdenied⟩ := hwithheld
    obtain ⟨m, hm, -, hdenies, -⟩ := (Tree.Advances.giveAll h.tree uid given).kept hthere
    exact ⟨m, hm, hdenies ▸ hdenied⟩
  have hstopped : chownEach path uid (h.tree.reach path) h =
      .error (.system (.about SystemError.notPermitted q.toString)) (h.givenAll path uid given) := by
    rw [hreach, chownEach_append path uid _ hbefore]
    exact bind_apply_of_error (chown_of_withheld path uid hstill) _
  rw [directChangeOwner_of_numbered path hnumber, mapFault_of_error hstopped]
  rfl

/-- How giving a path away ends by a direct call on the host `h`, if there is something at it. -/
inductive OwnerEnds (path : Path) (owner : String) (h : Host) :
    EStateM.Result Fault Host Unit → Prop where
  /-- The owner has no number, and nothing happens. -/
  | unknown (hnumber : h.passwd.lookup owner = none) :
      OwnerEnds path owner h (.error (IdentityStore.unknownAccount owner) h)
  /-- An entry that the path reaches is withheld, and those before it were given away. -/
  | withheld {uid : Int} {q : Path} {given rest : List Path}
      (hnumber : h.passwd.lookup owner = some uid)
      (hreach : h.tree.reach path = given ++ q :: rest)
      (hbefore : ∀ r ∈ given, h.tree.Givable r) (hwithheld : h.tree.Withheld q) :
      OwnerEnds path owner h
        (.error (ownerDenied path owner (.about SystemError.notPermitted q.toString))
          (h.givenAll path uid given))
  /-- Everything that the path reaches was given away. -/
  | given {uid : Int} (hnumber : h.passwd.lookup owner = some uid)
      (hall : ∀ q ∈ h.tree.reach path, h.tree.Givable q) :
      OwnerEnds path owner h (.ok () (h.givenAll path uid (h.tree.reach path)))

theorem ownerEnds_directChangeOwner (owner : String) (hthere : (h.tree.get? path).isSome = true) :
    OwnerEnds path owner h (directChangeOwner path owner h) := by
  cases hnumber : h.passwd.lookup owner with
  | none => exact directChangeOwner_of_numberless hnumber ▸ .unknown hnumber
  | some uid =>
      by_cases hall : ∀ q ∈ h.tree.reach path, h.tree.Givable q
      · exact directChangeOwner_of_givable hnumber hall ▸ .given hnumber hall
      · obtain ⟨n, hn⟩ := Option.isSome_iff_exists.1 hthere
        obtain ⟨given, q, rest, hreach, hbefore, hwithheld⟩ :=
          Tree.exists_first_withheld (fun q hq => Tree.isSome_of_mem_reach hn hq) hall
        exact directChangeOwner_of_withheld hnumber hreach hbefore hwithheld ▸
          .withheld hnumber hreach hbefore hwithheld

/-- Everything is given away if the owner has a number, and nothing that the path reaches is
withheld. -/
theorem directChangeOwner_returns_iff (owner : String)
    (hthere : (h.tree.get? path).isSome = true) :
    (∃ h', directChangeOwner path owner h = .ok () h') ↔
      (h.passwd.lookup owner).isSome = true ∧ ∀ q ∈ h.tree.reach path, ¬ h.tree.Withheld q := by
  have hends := ownerEnds_directChangeOwner owner hthere
  generalize directChangeOwner path owner h = result at hends
  cases hends with
  | unknown hnumber =>
      rw [hnumber]
      refine iff_of_false ?_ fun hboth => Bool.false_ne_true hboth.1
      rintro ⟨h', hended⟩
      cases hended
  | @withheld uid q given rest hnumber hreach hbefore hwithheld =>
      have hmet : q ∈ h.tree.reach path := by simp [hreach]
      refine iff_of_false ?_ fun hboth => hboth.2 q hmet hwithheld
      rintro ⟨h', hended⟩
      cases hended
  | given hnumber hall =>
      refine iff_of_true ⟨_, rfl⟩ ⟨by rw [hnumber]; rfl, fun q hq hwithheld => ?_⟩
      exact hwithheld.not_givable (hall q hq)

/-! ## What was given away -/

/-- From `h` to `h'` the entries of a list were given to the user `uid`, on the way from a path: each
by one call, in their order, and nothing else happened. -/
structure Gives (path : Path) (uid : Int) (qs : List Path) (h h' : Host) : Prop where
  nodup : qs.Nodup
  calls : h'.journal = h.journal ++ qs.map fun q => .chowned path q uid
  /-- What a call spells is its entry. -/
  spelled : ∀ q ∈ qs, Path.ofString (q.spelledFrom path) = q
  tree : ∀ q, h'.tree.get? q =
    if q ∈ qs then (h.tree.get? q).map (·.ownedBy uid) else h.tree.get? q
  rest : h' = { h with tree := h'.tree, journal := h'.journal }

theorem gives_givenAll {qs : List Path} (uid : Int) (hnodup : qs.Nodup)
    (hwithin : ∀ q ∈ qs, q.isWithin path = true) :
    Gives path uid qs h (h.givenAll path uid qs) where
  nodup := hnodup
  calls := rfl
  spelled q hq := Path.ofString_spelledFrom (hwithin q hq)
  tree q := h.tree.get?_giveAll uid q qs
  rest := rfl

namespace Gives

variable {qs : List Path} {n : Node}

theorem get?_of_not_mem (hgives : Gives path uid qs h h') (hq : q ∉ qs) :
    h'.tree.get? q = h.tree.get? q := by rw [hgives.tree, if_neg hq]

/-- An entry is as it was, or belongs to the user. -/
theorem get?_of_there (hgives : Gives path uid qs h h') (hthere : h.tree.get? q = some n) :
    h'.tree.get? q = some n ∨ h'.tree.get? q = some (n.ownedBy uid) := by
  rw [hgives.tree, hthere]
  by_cases hq : q ∈ qs
  · exact .inr (by rw [if_pos hq]; rfl)
  · exact .inl (by rw [if_neg hq])

end Gives

/-! ## The subtree, and nothing but the subtree -/

/-- A call that returns gave the subtree to the user with the owner's number, each entry once, and
changed nothing else.  A call that does not return changed nothing, for an owner without a number, or
gave away the entries that the walk met before one that is withheld; outside the subtree nothing
changed, and every entry belongs to whom it did or to the user.  It returns if the owner has a number
and no entry of the subtree is withheld. -/
theorem directChangeOwner_gives_subtree (path : Path) (owner : String) (h : Host)
    (hheld : h.tree.WellHeld path) (hthere : (h.tree.get? path).isSome = true) :
    (∀ h', directChangeOwner path owner h = .ok () h' →
      ∃ uid qs, h.passwd.lookup owner = some uid ∧ Gives path uid qs h h' ∧
        (∀ q, q ∈ qs ↔ q.isWithin path = true ∧ (h.tree.get? q).isSome = true) ∧
        ∀ q, h'.tree.get? q =
          if q.isWithin path = true then (h.tree.get? q).map (·.ownedBy uid)
          else h.tree.get? q) ∧
    (∀ e h', directChangeOwner path owner h = .error e h' →
      (h.passwd.lookup owner = none ∧ e = IdentityStore.unknownAccount owner ∧ h' = h) ∨
      (∃ uid qs refused, h.passwd.lookup owner = some uid ∧
        e = ownerDenied path owner (.about SystemError.notPermitted refused.toString) ∧
        Gives path uid qs h h' ∧ qs ++ [refused] <+: h.tree.reach path ∧
        refused.isWithin path = true ∧ h.tree.Withheld refused ∧
        (∀ q, q.isWithin path = false → h'.tree.get? q = h.tree.get? q) ∧
        ∀ q n, h.tree.get? q = some n →
          h'.tree.get? q = some n ∨ h'.tree.get? q = some (n.ownedBy uid))) ∧
    ((∃ h', directChangeOwner path owner h = .ok () h') ↔
      (h.passwd.lookup owner).isSome = true ∧
        ∀ q, q.isWithin path = true → ¬ h.tree.Withheld q) := by
  have hreach : ∀ q, q ∈ h.tree.reach path ↔
      q.isWithin path = true ∧ (h.tree.get? q).isSome = true := fun q => hheld.mem_reach_iff hthere
  have hends := ownerEnds_directChangeOwner owner hthere
  refine ⟨fun h' hreturned => ?_, fun e h' hfailed => ?_, ?_⟩
  · rw [hreturned] at hends
    cases hends with
    | @given uid hnumber hall =>
        exact ⟨uid, h.tree.reach path, hnumber,
          gives_givenAll uid hheld.nodup_reach fun q hq => ((hreach q).1 hq).1, hreach,
          hheld.get?_giveAll_reach hthere uid⟩
  · rw [hfailed] at hends
    cases hends with
    | unknown hnumber => exact .inl ⟨hnumber, rfl, rfl⟩
    | @withheld uid q given rest hnumber hsplit hbefore hwithheld =>
        have hmet : ∀ r ∈ given, r.isWithin path = true := fun r hr =>
          ((hreach r).1 (hsplit ▸ List.mem_append_left _ hr)).1
        have hrefused : q.isWithin path = true := ((hreach q).1 (by simp [hsplit])).1
        have hgives : Gives path uid given h (h.givenAll path uid given) :=
          gives_givenAll uid (List.nodup_append.1 (hsplit ▸ hheld.nodup_reach)).1 hmet
        refine .inr ⟨uid, given, q, hnumber, rfl, hgives, ⟨rest, by simp [hsplit]⟩, hrefused,
          hwithheld, ?_, fun r n => hgives.get?_of_there⟩
        intro r houtside
        refine hgives.get?_of_not_mem fun hr => ?_
        rw [hmet r hr] at houtside
        cases houtside
  · rw [directChangeOwner_returns_iff owner hthere]
    refine and_congr_right fun _ => ⟨fun hnone q hwithin hwithheld => ?_, fun hnone q hq => ?_⟩
    · have hsome : (h.tree.get? q).isSome = true := by
        obtain ⟨n, hn, -⟩ := hwithheld
        rw [hn]
        rfl
      exact hnone q ((hreach q).2 ⟨hwithin, hsome⟩) hwithheld
    · exact hnone q ((hreach q).1 hq).1

/-- A directory, a directory in it, and a file in that; beside them a directory whose name begins with
the name of the first.  If the file is withheld, both directories were given away before. -/
theorem directChangeOwner_gives_subtree_nested :
    let sp := Path.ofString "/cg/sp"
    let tree (denies : Denials) : Tree := .ofRows
      [(Path.ofString "/", {}), (Path.ofString "/cg", {}), (sp, {}), (Path.ofString "/cg/sp2", {}),
        (Path.ofString "/cg/sp/a", {}), (Path.ofString "/cg/sp/a/tasks", { type := .file, denies })]
    let h (denies : Denials) : Host :=
      { tree := tree denies, passwd := [("root", 0), ("runner", 1000)] }
    (∀ denies, (h denies).tree.WellHeld sp ∧ ((h denies).tree.get? sp).isSome = true) ∧
      (∃ h', directChangeOwner sp "runner" (h {}) = .ok () h' ∧
        h'.tree.get? (Path.ofString "/cg/sp/a/tasks") = some { type := .file, uid := 1000 } ∧
        h'.tree.get? (Path.ofString "/cg/sp2") = some {}) ∧
      ∃ h', directChangeOwner sp "runner" (h { chown := true }) =
          .error (ownerDenied sp "runner"
            (.about SystemError.notPermitted "/cg/sp/a/tasks")) h' ∧
        h'.tree.get? (Path.ofString "/cg/sp2") = some {} := by
  intro sp tree h
  have hboth : ∀ denies, (h denies).tree.WellHeld sp ∧
      ((h denies).tree.get? sp).isSome = true := by
    rintro ⟨stat, mkdir, chown⟩
    refine ⟨⟨Table.nodup_keys_ofRows _, ?_⟩, ?_⟩
    all_goals cases stat <;> cases mkdir <;> cases chown <;> decide +kernel
  refine ⟨hboth, ?_, ?_⟩
  · obtain ⟨hgives, -, hreturns⟩ :=
      directChangeOwner_gives_subtree sp "runner" (h {}) (hboth _).1 (hboth _).2
    have hundenied : (h {}).tree.Undenied :=
      (((((Tree.undenied_empty.put rfl _).put rfl _).put rfl _).put rfl _).put rfl _).put rfl _
    have hnone : ∀ q, ¬ (h {}).tree.Withheld q := by
      rintro q ⟨n, hn, hdenied⟩
      rw [hundenied hn] at hdenied
      cases hdenied
    obtain ⟨h', hreturned⟩ := hreturns.2 ⟨by decide, fun q _ => hnone q⟩
    obtain ⟨uid, qs, hnumber, -, -, htree⟩ := hgives h' hreturned
    cases hnumber
    exact ⟨h', hreturned, (htree _).trans (by decide +kernel), (htree _).trans (by decide +kernel)⟩
  · obtain ⟨-, hfails, hreturns⟩ :=
      directChangeOwner_gives_subtree sp "runner" (h { chown := true }) (hboth _).1 (hboth _).2
    have hwithheld : (h { chown := true }).tree.Withheld (Path.ofString "/cg/sp/a/tasks") := by
      decide +kernel
    cases hended : directChangeOwner sp "runner" (h { chown := true }) with
    | ok u h' => exact absurd hwithheld ((hreturns.1 ⟨h', hended⟩).2 _ (by decide +kernel))
    | error e h' =>
        rcases hfails e h' hended with
          ⟨hnumber, -⟩ | ⟨-, -, refused, -, rfl, -, -, -, ⟨n, hthere, hdenied⟩, houtside, -⟩
        · exact absurd hnumber (by decide)
        · have hrefused : refused = Path.ofString "/cg/sp/a/tasks" := by
            have hmem : refused ∈ (h { chown := true }).tree.keys :=
              (Table.mem_keys_iff _ _).2 (by rw [hthere]; rfl)
            have honly : ∀ q ∈ (h { chown := true }).tree.keys,
                (h { chown := true }).tree.Withheld q → q = Path.ofString "/cg/sp/a/tasks" := by
              decide +kernel
            exact honly refused hmem ⟨n, hthere, hdenied⟩
          subst hrefused
          exact ⟨h', rfl, (houtside _ (by decide +kernel)).trans (by decide +kernel)⟩

end CgroupFilesystem

end Provisioning
