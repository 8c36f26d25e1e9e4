/-
# `Provisioning.Proofs.Privilege.Table` — rights kept in memory, step by step

What a grant makes of the table of account rights: `RightsTable.withPrivileges`
adds what an account lacks of the privileges, and nothing to any other account.
A grant of nothing that is lacking is no edit, so it succeeds even while the
table refuses every grant.
-/
import Provisioning.Privilege.Grant
import Provisioning.Proofs.Account.Table

namespace Provisioning

theorem PrivilegeSet.union_sdiff_self (s t : PrivilegeSet) : (s ∪ t) \ s = t \ s := by
  refine ext_mem fun p => ?_
  by_cases hp : p ∈ s <;> simp [hp]

theorem PrivilegeSet.toList_eq_nil_iff {s : PrivilegeSet} : s.toList = [] ↔ s.isEmpty = true := by
  obtain ⟨a, b, c⟩ := s
  cases a <;> cases b <;> cases c <;> decide

theorem PrivilegeSet.exists_mem_of_isEmpty {s : PrivilegeSet} (hs : s.isEmpty = false) :
    ∃ p, p ∈ s := by
  refine Classical.byContradiction fun hnone => ?_
  have hempty : s = {} := ext_mem fun p => iff_of_false (fun hp => hnone ⟨p, hp⟩) (not_mem_empty p)
  rw [hempty] at hs
  exact nomatch hs

/-- A set is listed in the order of the constant names. -/
theorem PrivilegeSet.pairwise_toList (s : PrivilegeSet) :
    s.toList.Pairwise fun p q => p.constant < q.constant :=
  List.Pairwise.sublist List.filter_sublist (by decide)

namespace RightsTable

/-! ## The table -/

/-- What an account lacks of some privileges. -/
def lacking (t : RightsTable) (name : String) (privileges : PrivilegeSet) : PrivilegeSet :=
  privileges \ t.heldBy name

/-- The table after an account was given what it lacks of some privileges. -/
def withPrivileges (t : RightsTable) (name : String) (privileges : PrivilegeSet) : RightsTable :=
  if (t.lacking name privileges).isEmpty then t
  else
    { t with
      rights := t.rights.put (Text.lower name) (t.heldBy name ∪ t.lacking name privileges)
      grants := t.grants ++ [(name, t.lacking name privileges)] }

variable {t : RightsTable} {name other : String} {privileges : PrivilegeSet}

theorem withPrivileges_of_lacking_isEmpty (h : (t.lacking name privileges).isEmpty = true) :
    t.withPrivileges name privileges = t := if_pos h

theorem add_of_lacking (h : (t.lacking name privileges).isEmpty = false)
    (hallowed : t.failure = none) :
    t.add name (t.lacking name privileges) = .ok (t.withPrivileges name privileges) := by
  simp [add, withPrivileges, h, hallowed]

/-- The rights of an account are found whatever the case of its name. -/
theorem heldBy_congr (h : Text.lower name = Text.lower other) : t.heldBy name = t.heldBy other := by
  unfold heldBy
  rw [h]

theorem mem_heldBy_of_lacking_isEmpty (h : (t.lacking name privileges).isEmpty = true)
    {p : Privilege} (hp : p ∈ privileges) : p ∈ t.heldBy name := by
  have hnone : p ∉ t.lacking name privileges := by
    rw [PrivilegeSet.isEmpty_iff.1 h]
    exact PrivilegeSet.not_mem_empty p
  by_cases hheld : p ∈ t.heldBy name
  · exact hheld
  · exact absurd (PrivilegeSet.mem_sdiff.2 ⟨hp, hheld⟩) hnone

/-- Nothing is lacking to an account that holds all that it might lack. -/
theorem lacking_isEmpty_iff :
    (t.lacking name privileges).isEmpty = true ↔ ∀ p ∈ privileges, p ∈ t.heldBy name := by
  refine ⟨fun hempty p hp => mem_heldBy_of_lacking_isEmpty hempty hp, fun hall => ?_⟩
  refine PrivilegeSet.isEmpty_iff.2 (PrivilegeSet.ext_mem fun p => ?_)
  refine iff_of_false (fun hp => ?_) (PrivilegeSet.not_mem_empty p)
  obtain ⟨hwanted, hnew⟩ := PrivilegeSet.mem_sdiff.1 hp
  exact hnew (hall p hwanted)

/-- What is lacking is written down as granted. -/
theorem grants_withPrivileges (t : RightsTable) (name : String) (privileges : PrivilegeSet) :
    (t.withPrivileges name privileges).grants =
      t.grants ++ [(name, t.lacking name privileges)].filter (!·.2.isEmpty) := by
  unfold withPrivileges
  split
  · rename_i hempty
    simp [hempty]
  · rename_i hlacking
    simp [hlacking]

/-- The account of the name holds the privileges, and everyone else what they held. -/
theorem mem_heldBy_withPrivileges {p : Privilege} :
    p ∈ (t.withPrivileges name privileges).heldBy other ↔
      p ∈ t.heldBy other ∨ Text.lower other = Text.lower name ∧ p ∈ privileges := by
  cases hempty : (t.lacking name privileges).isEmpty with
  | true =>
      rw [withPrivileges_of_lacking_isEmpty hempty]
      constructor
      · exact .inl
      · rintro (hheld | ⟨hsame, hp⟩)
        · exact hheld
        · rw [heldBy_congr hsame]
          exact mem_heldBy_of_lacking_isEmpty hempty hp
  | false =>
      have hput : (t.withPrivileges name privileges).heldBy other =
          if Text.lower name = Text.lower other then t.heldBy name ∪ t.lacking name privileges
          else t.heldBy other := by
        simp only [withPrivileges, hempty, Bool.false_eq_true, if_false, heldBy, Table.get?_put]
        split <;> rfl
      rw [hput]
      split
      · rename_i hsame
        rw [heldBy_congr hsame]
        simp only [PrivilegeSet.mem_union, lacking, PrivilegeSet.mem_sdiff, hsame, true_and]
        rw [heldBy_congr hsame]
        by_cases hheld : p ∈ t.heldBy other <;> simp [hheld]
      · rename_i hother
        simp [Ne.symm hother]

/-- What an account lacked of the privileges is what somebody has gained. -/
theorem exists_gained_withPrivileges (t : RightsTable) (name : String) (privileges : PrivilegeSet)
    (p : Privilege) :
    (∃ other, p ∈ (t.withPrivileges name privileges).heldBy other ∧ p ∉ t.heldBy other) ↔
      p ∈ t.lacking name privileges := by
  simp only [mem_heldBy_withPrivileges, lacking, PrivilegeSet.mem_sdiff]
  constructor
  · rintro ⟨other, hheld | ⟨hsame, hp⟩, hnot⟩
    · exact absurd hheld hnot
    · exact ⟨hp, heldBy_congr hsame ▸ hnot⟩
  · rintro ⟨hp, hnot⟩
    exact ⟨name, .inr ⟨rfl, hp⟩, hnot⟩

theorem heldBy_withPrivileges (t : RightsTable) (name other : String) (privileges : PrivilegeSet) :
    (t.withPrivileges name privileges).heldBy other =
      if Text.lower other = Text.lower name then t.heldBy other ∪ privileges
      else t.heldBy other := by
  refine PrivilegeSet.ext_mem fun p => mem_heldBy_withPrivileges.trans ?_
  split
  · rename_i hsame
    simp [hsame]
  · rename_i hother
    simp [hother]

theorem failure_withPrivileges (t : RightsTable) (name : String) (privileges : PrivilegeSet) :
    (t.withPrivileges name privileges).failure = t.failure := by
  unfold withPrivileges
  split <;> rfl

/-- After the grant nothing is lacking. -/
theorem lacking_withPrivileges (t : RightsTable) (name : String) (privileges : PrivilegeSet) :
    ((t.withPrivileges name privileges).lacking name privileges).isEmpty = true := by
  refine PrivilegeSet.isEmpty_iff.2 (PrivilegeSet.ext_mem fun p => ?_)
  simp only [lacking, PrivilegeSet.mem_sdiff, mem_heldBy_withPrivileges,
    PrivilegeSet.not_mem_empty, true_and, iff_false, not_and]
  intro hp hlacks
  exact hlacks (.inr hp)

end RightsTable

/-! ## The steps -/

namespace SecurityPolicy

open Run

variable {S : Stores} {i : Identity}

theorem gives_accountRights (S : Stores) (name : String) :
    Gives Host.stores (accountRights .table name) S (S.rights.heldBy name) S := by
  refine gives_get_bind fun h hS => ?_
  subst hS
  exact gives_pure _ _

/-- What an account lacks is added unless something is lacking and grants are refused. -/
theorem gives_addMissing (name : String) (privileges : PrivilegeSet)
    (hallowed : (S.rights.lacking name privileges).isEmpty = true ∨ S.rights.failure = none) :
    Gives Host.stores (addMissing .table name privileges) S (S.rights.lacking name privileges)
      { S with rights := S.rights.withPrivileges name privileges } := by
  refine (gives_accountRights S name).bind ?_
  cases hempty : (S.rights.lacking name privileges).isEmpty with
  | true =>
      rw [RightsTable.withPrivileges_of_lacking_isEmpty hempty, PrivilegeSet.isEmpty_iff.1 hempty]
      exact Gives.ite_pos hempty ((gives_log _ _ _).bind (gives_pure _ _))
  | false =>
      have hfailure : S.rights.failure = none := by simpa [hempty] using hallowed
      have hmissing : ¬ (privileges \ S.rights.heldBy name).isEmpty = true := by
        rw [← RightsTable.lacking, hempty]
        exact Bool.false_ne_true
      refine Gives.ite_neg hmissing ((gives_log _ _ _).bind ?_)
      have hadd : Gives Host.stores
          (addAccountRights .table name (S.rights.lacking name privileges)) S ()
          { S with rights := S.rights.withPrivileges name privileges } := by
        refine (gives_note _).bind (gives_get_bind fun h hS => ?_)
        subst hS
        refine (gives_ofExcept (RightsTable.add_of_lacking hempty hfailure)).bind ?_
        exact gives_modify fun h' hS' => by
          simp only [Host.stores, Stores.mk.injEq] at hS' ⊢
          simp [hS']
      exact hadd.bind (gives_pure _ _)

/-- A grant succeeds unless something is lacking and grants are refused. -/
theorem gives_grant (privileges : PrivilegeSet) (hpresent : i.present = true)
    (hhas : S.accounts.has i.name = true)
    (hallowed : (S.rights.lacking i.name privileges).isEmpty = true ∨ S.rights.failure = none) :
    Gives Host.stores (grant .table .table i privileges) S (S.rights.lacking i.name privileges)
      { S with rights := S.rights.withPrivileges i.name privileges } :=
  (IdentityStore.gives_requireExisting hpresent hhas).bind
    (gives_mapFault (gives_addMissing i.name privileges hallowed) _)

/-- What a refused grant fails with. -/
def grantFault (name : String) : Fault → Fault
  | .system e => grantFailure name e
  | e => e

/-- While grants are refused nothing that is lacking is added, and nothing is changed. -/
theorem fails_addMissing {f : Fault} (name : String) (privileges : PrivilegeSet)
    (hlacking : (S.rights.lacking name privileges).isEmpty = false)
    (hfailure : S.rights.failure = some f) :
    Fails Host.stores (addMissing .table name privileges) S (· = f) S := by
  have hadd : Fails Host.stores
      (addAccountRights .table name (S.rights.lacking name privileges)) S (· = f) S := by
    refine (gives_note _).bind_fails (fails_get_bind fun h hS => ?_)
    subst hS
    have hrefused : h.rights.add name (h.stores.rights.lacking name privileges) = .error f := by
      have hfailure' : h.rights.failure = some f := hfailure
      rw [RightsTable.add, hfailure']
    exact (fails_ofExcept hrefused).bind _
  refine (gives_accountRights S name).bind_fails (Fails.ite_neg ?_ ?_)
  · rw [← RightsTable.lacking, hlacking]
    exact Bool.false_ne_true
  · exact (gives_log _ _ _).bind_fails (hadd.bind _)

/-- While grants are refused a grant of something that is lacking fails, and changes nothing. -/
theorem fails_grant {f : Fault} (privileges : PrivilegeSet) (hpresent : i.present = true)
    (hhas : S.accounts.has i.name = true)
    (hlacking : (S.rights.lacking i.name privileges).isEmpty = false)
    (hfailure : S.rights.failure = some f) :
    Fails Host.stores (grant .table .table i privileges) S (· = grantFault i.name f) S := by
  refine (IdentityStore.gives_requireExisting hpresent hhas).bind_fails ?_
  refine fails_mapFault (fails_addMissing i.name privileges hlacking hfailure) ?_
  rintro e rfl
  cases e <;> rfl

end SecurityPolicy

end Provisioning
