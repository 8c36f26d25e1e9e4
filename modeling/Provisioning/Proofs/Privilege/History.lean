/-
# `Provisioning.Proofs.Privilege.History` — the books of an account

Over many grants, to many accounts, some of them refused, an account is given
each privilege once: the first time that it is asked for and not refused.  A
call is for an account if it names it, in any case.

    held at first      s₀
    a call returned    s₁        what it added, of `a₁` that it was asked for
    a call raised                nothing
    a call returned    s₂        what it added, of `a₂`
    held at last       s₀ ∪ s₁ ∪ s₂ = s₀ ∪ a₁ ∪ a₂

No two of the `sᵢ` have a member in common, and neither sum depends on the
order of the calls.

**Stated here.**  The books of every account balance after any calls, a call
that raises leaves the table as it was, and none takes a privilege away
(`grants_balance`).
-/
import Provisioning.Proofs.Account.Vouched
import Provisioning.Proofs.Host.Rounds
import Provisioning.Proofs.Privilege.Added

namespace Provisioning

open Run

/-! ## Sums of sets -/

namespace PrivilegeSet

/-- The sets have no member in common. -/
def Apart (s t : PrivilegeSet) : Prop := ∀ p ∈ s, p ∉ t

/-- What is in any of the sets. -/
def unions (ss : List PrivilegeSet) : PrivilegeSet := ss.foldr (· ∪ ·) {}

@[simp] theorem mem_unions {ss : List PrivilegeSet} {p : Privilege} :
    p ∈ unions ss ↔ ∃ s ∈ ss, p ∈ s := by
  induction ss with
  | nil => simp [unions]
  | cons s ss ih =>
      have hcons : unions (s :: ss) = s ∪ unions ss := rfl
      simp [hcons, ih]

/-- Neither order nor repetition matters to a sum. -/
theorem unions_congr {ss ts : List PrivilegeSet} (hsame : ∀ s, s ∈ ss ↔ s ∈ ts) :
    unions ss = unions ts :=
  ext_mem fun p => by simp only [mem_unions, hsame]

/-- What was held at first and was given later, apart from one another, is held at last; and that is
what was held and was asked for. -/
structure Balanced (held : PrivilegeSet) (given asked : List PrivilegeSet) (last : PrivilegeSet) :
    Prop where
  apart : (held :: given).Pairwise Apart
  given_eq : last = held ∪ unions given
  asked_eq : last = held ∪ unions asked

theorem balanced_nil (held : PrivilegeSet) : Balanced held [] [] held where
  apart := List.pairwise_singleton _ _
  given_eq := ext_mem fun p => by simp
  asked_eq := ext_mem fun p => by simp

/-- One more call before the others, which gives what is not held of what is asked for. -/
theorem Balanced.cons {held ps last : PrivilegeSet} {given asked : List PrivilegeSet}
    (hbalanced : Balanced (held ∪ ps) given asked last) :
    Balanced held ((ps \ held) :: given) (ps :: asked) last := by
  obtain ⟨hlater, hgiven⟩ := List.pairwise_cons.1 hbalanced.apart
  refine ⟨?_, ?_, ?_⟩
  · have hnew : ∀ s ∈ given, Apart (ps \ held) s := fun s hs p hp =>
      hlater s hs p (mem_union.2 (.inr (mem_sdiff.1 hp).1))
    refine List.pairwise_cons.2 ⟨fun s hs p hp hps => ?_, List.pairwise_cons.2 ⟨hnew, hgiven⟩⟩
    rcases List.mem_cons.1 hs with rfl | hs
    · exact (mem_sdiff.1 hps).2 hp
    · exact hlater s hs p (mem_union.2 (.inl hp)) hps
  · rw [hbalanced.given_eq]
    refine ext_mem fun p => ?_
    by_cases hp : p ∈ held <;> simp [hp]
  · rw [hbalanced.asked_eq]
    exact ext_mem fun p => by simp [or_assoc]

end PrivilegeSet

/-! ## Calls of the grantor -/

/-- A grant that is called for: to whom, of what, and why the table refuses it, if it does. -/
structure GrantCall where
  identity : Identity
  privileges : PrivilegeSet
  refusing : Option Fault := none

namespace GrantCall

/-- The host, once its table refuses what the call says. -/
def on (c : GrantCall) (h : Host) : Host :=
  { h with rights := { h.rights with failure := c.refusing } }

/-- The call names the account. -/
def isFor (c : GrantCall) (name : String) : Bool := Text.lower name == Text.lower c.identity.name

end GrantCall

/-- Grant what is called for. -/
def SecurityPolicy.grantCalled (policy : SecurityPolicy) (store : IdentityStore) (c : GrantCall) :
    Run PrivilegeSet := fun h => policy.grant store c.identity c.privileges (c.on h)

abbrev GrantRound := Round GrantCall PrivilegeSet

namespace GrantRound

/-- What was returned by the calls for an account. -/
def givenTo (name : String) (rs : List GrantRound) : List PrivilegeSet :=
  (rs.filter fun r => r.call.isFor name).filterMap Round.value?

/-- What was asked for in the calls for an account that returned. -/
def askedFor (name : String) (rs : List GrantRound) : List PrivilegeSet :=
  (rs.filter fun r => r.call.isFor name && r.value?.isSome).map fun r => r.call.privileges

end GrantRound

open GrantRound

/-! ## One call -/

namespace SecurityPolicy

variable {store : IdentityStore} {c : GrantCall} {cs : List GrantCall} {h : Host} {name : String}

/-- What a call on the table comes to: it returns what was lacking, or it raises. -/
inductive GrantRoundEnds (r : GrantRound) : Prop where
  | returned (hvalue : r.value? = some (r.before.rights.lacking r.call.identity.name r.call.privileges))
      (hrights : r.after.rights = RightsTable.withPrivileges (r.call.on r.before).rights
        r.call.identity.name r.call.privileges)
  | raised (hvalue : r.value? = none) (hsame : r.after.rights = (r.call.on r.before).rights)

theorem grantRoundEnds_roundOn (store : IdentityStore) (c : GrantCall) (h : Host) :
    GrantRoundEnds (roundOn (grantCalled .table store) c h) := by
  have hends := tableGrantEnds_grant store c.identity c.privileges (c.on h)
  cases hended : grant .table store c.identity c.privileges (c.on h) with
  | ok added h' =>
      rw [hended] at hends
      obtain ⟨hadded, hrights⟩ := hends.of_ok
      refine .returned ?_ ?_
      · simp only [Round.value?, roundOn, grantCalled, hended, hadded]
        rfl
      · simpa only [Round.after, roundOn, grantCalled, hended] using hrights
  | error e h' =>
      rw [hended] at hends
      refine .raised ?_ ?_
      · simp only [Round.value?, roundOn, grantCalled, hended]
      · simpa only [Round.after, roundOn, grantCalled, hended] using hends.rights_of_error

/-- Neither kind of call takes anything away, or gives anything to an account that it does not name. -/
theorem GrantRoundEnds.heldBy_after {r : GrantRound} (hends : GrantRoundEnds r) (name : String) :
    r.after.rights.heldBy name =
      if r.call.isFor name && r.value?.isSome then
        r.before.rights.heldBy name ∪ r.call.privileges
      else r.before.rights.heldBy name := by
  cases hends with
  | returned hvalue hrights =>
      rw [hrights, hvalue, RightsTable.heldBy_withPrivileges]
      simp only [Option.isSome_some, Bool.and_true, GrantCall.isFor, beq_iff_eq]
      rfl
  | raised hvalue hsame =>
      rw [hsame, hvalue, Option.isSome_none, Bool.and_false]
      rfl

/-- One more call before the others: the step of the books. -/
theorem GrantRoundEnds.balanced_cons {r : GrantRound} (hends : GrantRoundEnds r)
    {rs : List GrantRound} {last : PrivilegeSet}
    (hlater : PrivilegeSet.Balanced (r.after.rights.heldBy name) (givenTo name rs)
      (askedFor name rs) last) :
    PrivilegeSet.Balanced (r.before.rights.heldBy name) (givenTo name (r :: rs))
      (askedFor name (r :: rs)) last := by
  rw [hends.heldBy_after name] at hlater
  cases hfor : r.call.isFor name with
  | false => simpa [givenTo, askedFor, hfor] using hlater
  | true =>
      cases hends with
      | returned hvalue hrights =>
          have hheld : r.before.rights.heldBy r.call.identity.name = r.before.rights.heldBy name :=
            RightsTable.heldBy_congr (beq_iff_eq.1 hfor).symm
          simp only [givenTo, askedFor, List.filter_cons, hfor, hvalue, if_true,
            Option.isSome_some, Bool.and_true, List.filterMap_cons, List.map_cons] at hlater ⊢
          rw [RightsTable.lacking, hheld]
          exact hlater.cons
      | raised hvalue hsame => simpa [givenTo, askedFor, hfor, hvalue] using hlater

theorem balanced_rounds (store : IdentityStore) (name : String) (cs : List GrantCall) (h : Host) :
    PrivilegeSet.Balanced (h.rights.heldBy name)
      (givenTo name (rounds (grantCalled .table store) cs h))
      (askedFor name (rounds (grantCalled .table store) cs h))
      ((hostAfterAll (grantCalled .table store) cs h).rights.heldBy name) := by
  induction cs generalizing h with
  | nil => exact PrivilegeSet.balanced_nil _
  | cons c cs ih =>
      exact (grantRoundEnds_roundOn store c h).balanced_cons
        (ih (roundOn (grantCalled .table store) c h).after)

end SecurityPolicy

/-! ## Accounts that are there -/

/-- The host aside from what a grant on the table can change. -/
def Host.asideRights (h : Host) : Host := { h.aside with rights := {} }

theorem IdentityStore.Vouches.of_asideRights {store : IdentityStore} {i : Identity} {h h' : Host}
    (hvouches : store.Vouches i h) (hsame : h'.asideRights = h.asideRights) :
    store.Vouches i h' := by
  have hview {τ : Type} (field : Host → τ) (hfield : ∀ x, field x.asideRights = field x) :
      field h' = field h := by rw [← hfield h', ← hfield h, hsame]
  cases store with
  | table => simpa only [Vouches, hview Host.accounts fun _ => rfl] using hvouches
  | netUser executable limit =>
      simpa only [Vouches, hview Host.programs fun _ => rfl, hview Host.tree fun _ => rfl]
        using hvouches
  | posix => simpa only [Vouches, hview Host.passwd fun _ => rfl] using hvouches

namespace SecurityPolicy

theorem leads_addMissing_table (name : String) (privileges : PrivilegeSet) :
    Leads (SameBy Host.asideRights) (addMissing .table name privileges) := by
  refine Leads.bind (leads_get.bind fun _ => leads_pure _) fun held => ?_
  refine Leads.ite (Leads.bind (fun _ => rfl) fun _ => leads_pure _)
    (Leads.bind (fun _ => rfl) fun _ => Leads.bind ?_ fun _ => leads_pure _)
  exact Leads.bind (fun _ => rfl) fun _ =>
    leads_get.bind fun _ => (leads_ofExcept _).bind fun _ _ => rfl

/-- A grant to an account that is there changes the table and the journal, and nothing else. -/
theorem asideRights_grantCalled (hvouches : store.Vouches c.identity h) :
    SameBy Host.asideRights h ((grantCalled .table store c).hostAfter h) := by
  have hthere : store.Vouches c.identity (c.on h) := hvouches.of_asideRights rfl
  obtain ⟨h₁, hrequire, hlooked⟩ :=
    IdentityStore.gives_requireExisting_of_vouches hthere (c.on h) rfl
  have hsame : h₁.asideRights = h.asideRights :=
    congrArg (fun x : Host => { x with rights := {} }) hlooked
  have hgrant : SameBy Host.asideRights h₁
      ((grant .table store c.identity c.privileges).hostAfter (c.on h)) :=
    Leads.after_ok ((leads_addMissing_table _ _).mapFault _) hrequire
  exact hgrant.trans hsame

/-- Calls leave every account there that was there, and that they are for. -/
theorem vouches_before {r : GrantRound} (hvouches : ∀ c ∈ cs, store.Vouches c.identity h)
    (hr : r ∈ rounds (grantCalled .table store) cs h) :
    store.Vouches r.call.identity r.before := by
  have hkept : ∀ c ∈ cs, ∀ x : Host, (∀ c ∈ cs, store.Vouches c.identity x) →
      ∀ c' ∈ cs, store.Vouches c'.identity ((grantCalled .table store c).hostAfter x) :=
    fun c hc x hall c' hc' => (hall c' hc').of_asideRights (asideRights_grantCalled (hall c hc))
  exact holds_before hkept hr hvouches r.call (of_mem_rounds hr).1

/-- A call for an account that is there raises only while its table refuses, and something is lacking. -/
theorem raises_iff {r : GrantRound} (hround : r = roundOn (grantCalled .table store) c h)
    (hvouches : store.Vouches c.identity h) :
    r.value? = none ↔
      c.refusing.isSome = true ∧ (h.rights.lacking c.identity.name c.privileges).isEmpty = false := by
  subst hround
  have hends := tableGrantEnds_grant store c.identity c.privileges (c.on h)
  have hthere : store.Vouches c.identity (c.on h) := hvouches.of_asideRights rfl
  unfold Round.value? roundOn grantCalled
  dsimp only
  revert hends
  generalize grant .table store c.identity c.privileges (c.on h) = result
  intro hends
  cases hends with
  | unknown hrequire =>
      exact absurd hrequire ((IdentityStore.gives_requireExisting_of_vouches hthere).ne_error rfl)
  | granted hallowed hrights =>
      have hallowed' : (h.rights.lacking c.identity.name c.privileges).isEmpty = true ∨
          c.refusing = none := hallowed
      refine iff_of_false nofun ?_
      rintro ⟨hrefusing, hlacking⟩
      rcases hallowed' with hempty | hnone
      · rw [hlacking] at hempty
        cases hempty
      · rw [hnone] at hrefusing
        cases hrefusing
  | refused hlacking hfailure hsame =>
      have hrefusing : c.refusing = some _ := hfailure
      exact iff_of_true rfl ⟨by rw [hrefusing]; rfl, hlacking⟩

/-! ## All calls -/

/-- What some calls on the table, made from the host `h` on, keep to. -/
structure KeepsBooks (store : IdentityStore) (cs : List GrantCall) (h : Host) : Prop where
  /-- The sets that the calls for an account return have no member in common with one another, or with
  what it held; what it holds at last is that and those, and is that and all that was asked for. -/
  balanced : ∀ name, PrivilegeSet.Balanced (h.rights.heldBy name)
    (givenTo name (rounds (grantCalled .table store) cs h))
    (askedFor name (rounds (grantCalled .table store) cs h))
    ((hostAfterAll (grantCalled .table store) cs h).rights.heldBy name)
  /-- The same requests in another order, among any others, leave an account with the same. -/
  order : ∀ name cs',
    (askedFor name (rounds (grantCalled .table store) cs' h)).Perm
      (askedFor name (rounds (grantCalled .table store) cs h)) →
    (hostAfterAll (grantCalled .table store) cs' h).rights.heldBy name =
      (hostAfterAll (grantCalled .table store) cs h).rights.heldBy name
  /-- A call that raises changes neither the rights of anybody nor the grants that are on record. -/
  raised : ∀ r ∈ rounds (grantCalled .table store) cs h,
    r.value? = none → r.after.rights = (r.call.on r.before).rights
  /-- No call takes a privilege away. -/
  kept : ∀ r ∈ rounds (grantCalled .table store) cs h, ∀ name,
    ∀ p ∈ r.before.rights.heldBy name, p ∈ r.after.rights.heldBy name
  /-- If the accounts are there, then what raises is what the table refuses: a grant of something. -/
  returns : (∀ c ∈ cs, store.Vouches c.identity h) →
    ∀ r ∈ rounds (grantCalled .table store) cs h,
      r.value? = none ↔ r.call.refusing.isSome = true ∧
        (r.before.rights.lacking r.call.identity.name r.call.privileges).isEmpty = false
  /-- And then no call changes anything but the table and the journal. -/
  aside : (∀ c ∈ cs, store.Vouches c.identity h) →
    ∀ r ∈ rounds (grantCalled .table store) cs h, r.after.asideRights = r.before.asideRights

/-- **The books of every account balance**, whatever is granted, to whom, in which order, and which of
the grants are refused. -/
theorem grants_balance (store : IdentityStore) (cs : List GrantCall) (h : Host) :
    KeepsBooks store cs h where
  balanced name := balanced_rounds store name cs h
  order name cs' hperm := by
    rw [(balanced_rounds store name cs' h).asked_eq, (balanced_rounds store name cs h).asked_eq,
      PrivilegeSet.unions_congr fun _ => hperm.mem_iff]
  raised r hr hvalue := by
    have hends : GrantRoundEnds r := (of_mem_rounds hr).2 ▸ grantRoundEnds_roundOn store _ _
    cases hends with
    | returned hreturned hrights =>
        rw [hreturned] at hvalue
        cases hvalue
    | raised _ hsame => exact hsame
  kept r hr name p hp := by
    have hends : GrantRoundEnds r := (of_mem_rounds hr).2 ▸ grantRoundEnds_roundOn store _ _
    rw [hends.heldBy_after name]
    split
    · exact PrivilegeSet.mem_union.2 (.inl hp)
    · exact hp
  returns hvouches r hr :=
    raises_iff (of_mem_rounds hr).2 (vouches_before hvouches hr)
  aside hvouches r hr := by
    rw [(of_mem_rounds hr).2]
    exact asideRights_grantCalled (vouches_before hvouches hr)

/-- Refused, then granted, then asked for again in another case. -/
example :
    (rounds (grantCalled .table .table)
      [{ identity := { name := "bob", present := true, named := by decide }
         privileges := .runner, refusing := some .outOfRange },
       { identity := { name := "bob", present := true, named := by decide }, privileges := .runner },
       { identity := { name := "BOB", present := true, named := by decide }, privileges := .runner }]
      { accounts := .ofNames ["Bob"] "carol" }).map Round.value? =
      [none, some .runner, some {}] := by decide +kernel

end SecurityPolicy

end Provisioning
