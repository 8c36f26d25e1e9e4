/-
# `Provisioning.Proofs.Privilege.Added` — when a privilege was added to an account

Of everything that a run does, only a grant can add a privilege to an account,
and it gives back what it added.  All else spares the privileges: the table of
account rights keeps its rows, and the security service accepts no call that
adds rights.

    table       an account holds a privilege that it did not hold before
    service     a call to add rights, not of none, was accepted

**Stated here.**  A grant that ends in a set of privileges has added one
exactly if the set is not empty, and a grant that fails has added none
(`adds_grant`), for both policies and however the security service answers.
-/
import Provisioning.Proofs.Growth
import Provisioning.Proofs.Privilege.Table

namespace Provisioning

open Run

/-- No privilege was added on the way from `h` to `h'`. -/
def Host.Spares (h h' : Host) : Prop :=
  h'.rights.rights = h.rights.rights ∧
    ∃ es : Journal, h'.journal = h.journal ++ es ∧
      ∀ handle names, .called (.addRights handle names) none ∉ es

instance : Steady Host.Spares where
  refl h := ⟨rfl, [], by simp, by simp⟩
  trans := by
    rintro h h' h'' ⟨hrights, es, hj, hcalls⟩ ⟨hrights', fs, hj', hcalls'⟩
    refine ⟨hrights'.trans hrights, es ++ fs, by rw [hj', hj, List.append_assoc], ?_⟩
    intro handle names hmem
    rcases List.mem_append.1 hmem with hmem | hmem
    · exact hcalls handle names hmem
    · exact hcalls' handle names hmem
  of_proceeds := by
    rintro h _ ⟨es, t, accounts, access, cgroups, validated, rfl, hroutine⟩
    exact ⟨rfl, es, rfl, fun handle names hmem => nomatch hroutine _ hmem⟩

theorem allows_spares (c : Change) : Allows Host.Spares c :=
  fun _ => ⟨rfl, [.requested c], rfl, by simp⟩

/-- Some account was given a privilege on the way from `h` to `h'`. -/
def SecurityPolicy.Added (policy : SecurityPolicy) (h h' : Host) : Prop :=
  match policy with
  | .table => ∃ name, ∃ p, p ∈ h'.rights.heldBy name ∧ p ∉ h.rights.heldBy name
  | .lsa =>
    ∃ handle names, names ≠ [] ∧
      .called (.addRights handle names) none ∈ h'.journal.drop h.journal.length

namespace Host.Spares

variable {policy : SecurityPolicy} {h h' h'' : Host}

theorem heldBy_eq (hspares : h.Spares h') (name : String) :
    h'.rights.heldBy name = h.rights.heldBy name := by
  unfold RightsTable.heldBy
  rw [hspares.1]

theorem not_added (hspares : h.Spares h') : ¬ policy.Added h h' := by
  intro hadded
  cases policy with
  | table =>
      obtain ⟨name, p, hheld, hnew⟩ := hadded
      exact hnew (hspares.heldBy_eq name ▸ hheld)
  | lsa =>
      obtain ⟨-, es, hj, hcalls⟩ := hspares
      obtain ⟨handle, names, -, hmem⟩ := hadded
      rw [hj, List.drop_left] at hmem
      exact hcalls handle names hmem

/-- What was added later was added since an earlier host, if that was spared until then. -/
theorem added_trans (hspares : h.Spares h') (hadded : policy.Added h' h'') :
    policy.Added h h'' := by
  cases policy with
  | table =>
      obtain ⟨name, p, hheld, hnew⟩ := hadded
      exact ⟨name, p, hheld, hspares.heldBy_eq name ▸ hnew⟩
  | lsa =>
      obtain ⟨-, es, hj, -⟩ := hspares
      obtain ⟨handle, names, hne, hmem⟩ := hadded
      refine ⟨handle, names, hne, ?_⟩
      rw [hj, List.length_append, ← List.drop_drop] at hmem
      exact List.mem_of_mem_drop hmem

/-- What was added is not taken away. -/
theorem trans_added (hadded : policy.Added h h') (hspares : h'.Spares h'') :
    policy.Added h h'' := by
  cases policy with
  | table =>
      obtain ⟨name, p, hheld, hnew⟩ := hadded
      exact ⟨name, p, (hspares.heldBy_eq name).symm ▸ hheld, hnew⟩
  | lsa =>
      obtain ⟨-, es, hj, -⟩ := hspares
      obtain ⟨handle, names, hne, hmem⟩ := hadded
      refine ⟨handle, names, hne, ?_⟩
      rw [hj, List.drop_append]
      exact List.mem_append_left _ hmem

end Host.Spares

/-- `due` tells whether a privilege was added on the way from `h` to `h'`. -/
inductive SecurityPolicy.Discloses (policy : SecurityPolicy) (h h' : Host) : Bool → Prop where
  | added (hadded : policy.Added h h') : policy.Discloses h h' true
  | spared (hspares : h.Spares h') : policy.Discloses h h' false

namespace SecurityPolicy.Discloses

variable {policy : SecurityPolicy} {h h' h'' : Host} {due : Bool}

theorem due_iff (hdiscloses : policy.Discloses h h' due) : due = true ↔ policy.Added h h' := by
  cases hdiscloses with
  | added hadded => exact iff_of_true rfl hadded
  | spared hspares => exact iff_of_false Bool.false_ne_true hspares.not_added

theorem trans_spares (hdiscloses : policy.Discloses h h' due) (hspares : h'.Spares h'') :
    policy.Discloses h h'' due := by
  cases hdiscloses with
  | added hadded => exact .added (Host.Spares.trans_added hadded hspares)
  | spared hbefore => exact .spared (trans_of Host.Spares hbefore hspares)

theorem of_spares (hspares : h.Spares h') (hdiscloses : policy.Discloses h' h'' due) :
    policy.Discloses h h'' due := by
  cases hdiscloses with
  | added hadded => exact .added (hspares.added_trans hadded)
  | spared hafter => exact .spared (trans_of Host.Spares hspares hafter)

end SecurityPolicy.Discloses

/-! ## Steps that add privileges -/

namespace Run

variable {α β : Type} {policy : SecurityPolicy} {gave : α → Bool} {gave' : β → Bool} {act : Run α}

/-- The step adds privileges exactly when it ends in a value of which `gave` is true. -/
def Adds (policy : SecurityPolicy) (gave : α → Bool) (act : Run α) : Prop :=
  ∀ h, match act h with
    | .ok a h' => policy.Discloses h h' (gave a)
    | .error _ h' => h.Spares h'

/-- Steps before one that adds privileges. -/
theorem Leads.bind_adds (hspares : Leads Host.Spares act) {next : α → Run β}
    (hnext : ∀ a, Adds policy gave' (next a)) : Adds policy gave' (act >>= next) := by
  intro h
  cases hact : act h with
  | error e h' =>
      rw [bind_apply_of_error hact]
      exact hspares.of_error hact
  | ok a h' =>
      have hbefore := hspares.of_ok hact
      have hadds := hnext a h'
      rw [bind_apply_of_ok hact]
      cases hended : next a h' with
      | error e h'' =>
          rw [hended] at hadds
          exact trans_of Host.Spares hbefore hadds
      | ok b h'' =>
          rw [hended] at hadds
          exact hadds.of_spares hbefore

/-- A step after one that adds privileges, which does not fail and gives as much. -/
theorem Adds.bind_quiet (hadds : Adds policy gave act) {next : α → Run β}
    (hnext : ∀ a h, ∃ b h', next a h = .ok b h' ∧ gave' b = gave a ∧ h.Spares h') :
    Adds policy gave' (act >>= next) := by
  intro h
  have hstep := hadds h
  cases hact : act h with
  | error e h' =>
      rw [hact] at hstep
      rw [bind_apply_of_error hact]
      exact hstep
  | ok a h' =>
      rw [hact] at hstep
      obtain ⟨b, h'', hended, hgave, hafter⟩ := hnext a h'
      rw [bind_apply_of_ok hact, hended]
      dsimp only at hstep ⊢
      rw [hgave]
      exact hstep.trans_spares hafter

theorem Adds.mapFault (hadds : Adds policy gave act) (replace : Fault → Option Fault) :
    Adds policy gave (mapFault replace act) := by
  intro h
  have hstep := hadds h
  unfold Run.mapFault
  cases hact : act h with
  | error e h' =>
      rw [hact] at hstep
      exact hstep
  | ok a h' =>
      rw [hact] at hstep
      exact hstep

end Run

/-! ## The table -/

namespace SecurityPolicy

variable {name : String} {ps : PrivilegeSet} {h : Host}

theorem addAccountRights_table_of_ok {t : RightsTable} (hadd : h.rights.add name ps = .ok t) :
    addAccountRights .table name ps h =
      .ok () { h.noted (.requested (.addPrivileges name ps)) with rights := t } := by
  unfold addAccountRights
  rw [note_bind]
  dsimp only
  rw [bind_eq_of_ok (show (get : Run Host) (h.noted _) = .ok (h.noted _) (h.noted _) from rfl)]
  unfold Host.noted
  rw [hadd]
  rfl

theorem addAccountRights_table_of_error {e : Fault} (hadd : h.rights.add name ps = .error e) :
    addAccountRights .table name ps h =
      .error e (h.noted (.requested (.addPrivileges name ps))) := by
  unfold addAccountRights
  rw [note_bind]
  dsimp only
  rw [bind_eq_of_ok (show (get : Run Host) (h.noted _) = .ok (h.noted _) (h.noted _) from rfl)]
  unfold Host.noted
  rw [hadd]
  rfl

/-- The account holds what it lacked, and lacked it before. -/
theorem added_withPrivileges (hlacking : (h.rights.lacking name ps).isEmpty = false) {h' : Host}
    (hrights : h'.rights = h.rights.withPrivileges name ps) : Added .table h h' := by
  obtain ⟨p, hp⟩ := PrivilegeSet.exists_mem_of_isEmpty hlacking
  obtain ⟨hwanted, hnew⟩ := PrivilegeSet.mem_sdiff.1 hp
  refine ⟨name, p, ?_, hnew⟩
  rw [hrights]
  exact RightsTable.mem_heldBy_withPrivileges.2 (.inr ⟨rfl, hwanted⟩)

/-- How a grant on the table ends, from the host `h`. -/
inductive TableGrantEnds (store : IdentityStore) (i : Identity) (privileges : PrivilegeSet)
    (h : Host) : EStateM.Result Fault Host PrivilegeSet → Prop where
  /-- The account database does not let the identity through. -/
  | unknown {e : Fault} {h' : Host} (hrequire : store.requireExisting i h = .error e h')
      (hsame : h'.rights = h.rights) : TableGrantEnds store i privileges h (.error e h')
  | granted {h' : Host}
      (hallowed : (h.rights.lacking i.name privileges).isEmpty = true ∨ h.rights.failure = none)
      (hrights : h'.rights = h.rights.withPrivileges i.name privileges) :
      TableGrantEnds store i privileges h (.ok (h.rights.lacking i.name privileges) h')
  | refused {f : Fault} {h' : Host}
      (hlacking : (h.rights.lacking i.name privileges).isEmpty = false)
      (hfailure : h.rights.failure = some f) (hsame : h'.rights = h.rights) :
      TableGrantEnds store i privileges h (.error (grantFault i.name f) h')

namespace TableGrantEnds

variable {store : IdentityStore} {i : Identity} {privileges : PrivilegeSet} {h' : Host}

/-- A grant that ends gives back what the account lacked, and the account has gained that. -/
theorem of_ok {added : PrivilegeSet}
    (hends : TableGrantEnds store i privileges h (.ok added h')) :
    added = h.rights.lacking i.name privileges ∧
      h'.rights = h.rights.withPrivileges i.name privileges := by
  cases hends with
  | granted _ hrights => exact ⟨rfl, hrights⟩

/-- A grant that fails leaves the table as it was. -/
theorem rights_of_error {e : Fault}
    (hends : TableGrantEnds store i privileges h (.error e h')) : h'.rights = h.rights := by
  cases hends with
  | unknown _ hsame => exact hsame
  | refused _ _ hsame => exact hsame

end TableGrantEnds

theorem tableGrantEnds_grant (store : IdentityStore) (i : Identity) (privileges : PrivilegeSet)
    (h : Host) : TableGrantEnds store i privileges h (grant .table store i privileges h) := by
  have hlooks := IdentityStore.steady_requireExisting (R := SameBy Host.rights) store i
  unfold grant
  cases hrequire : store.requireExisting i h with
  | error e h₁ =>
      rw [bind_apply_of_error hrequire]
      exact .unknown hrequire (hlooks.of_error hrequire)
  | ok j h₁ =>
      have hsame : h₁.stores.rights = h.rights := hlooks.of_ok hrequire
      rw [bind_apply_of_ok hrequire]
      by_cases hallowed :
          (h.rights.lacking i.name privileges).isEmpty = true ∨ h.rights.failure = none
      · obtain ⟨h', hended, hstores⟩ := gives_mapFault
          (gives_addMissing i.name privileges (hsame ▸ hallowed)) _ h₁ rfl
        rw [hended, hsame]
        exact .granted hallowed ((congrArg Stores.rights hstores).trans (by rw [hsame]))
      · obtain ⟨hlacking, hfailure⟩ := not_or.1 hallowed
        obtain ⟨f, hf⟩ := Option.ne_none_iff_exists'.1 hfailure
        have hlacking' : (h.rights.lacking i.name privileges).isEmpty = false := by
          simpa using hlacking
        obtain ⟨e, h', hended, rfl, hstores⟩ :=
          fails_addMissing i.name privileges (hsame ▸ hlacking') (hsame ▸ hf) h₁ rfl
        rw [mapFault_of_error hended]
        have hrights := (congrArg Stores.rights hstores).trans hsame
        cases e <;> exact .refused hlacking' hf hrights

theorem adds_addMissing_table (name : String) (privileges : PrivilegeSet) :
    Adds .table (fun added => !added.isEmpty) (addMissing .table name privileges) := by
  intro h
  have hheld : accountRights .table name h = .ok (h.rights.heldBy name) h := rfl
  unfold addMissing
  rw [bind_apply_of_ok hheld]
  dsimp only
  rw [← RightsTable.lacking]
  cases hlacking : (h.rights.lacking name privileges).isEmpty with
  | true =>
      rw [if_pos rfl, log_bind]
      exact SecurityPolicy.Discloses.spared
        ((steady_log .info .privileges _).of_ok (log_apply _ _ _ h))
  | false =>
      rw [if_neg Bool.false_ne_true, log_bind]
      have hlogged (message : String) : h.Spares (h.logged .info .privileges message) :=
        (steady_log .info .privileges message).of_ok (log_apply _ _ _ h)
      cases hfailure : h.rights.failure with
      | none =>
          have hadd := RightsTable.add_of_lacking hlacking hfailure
          rw [bind_apply_of_ok (addAccountRights_table_of_ok
            (h := h.logged .info .privileges _) hadd)]
          simp only [pure_apply, hlacking]
          exact .added (added_withPrivileges hlacking rfl)
      | some f =>
          have hrefused : h.rights.add name (h.rights.lacking name privileges) = .error f := by
            rw [RightsTable.add, hfailure]
          rw [bind_apply_of_error (addAccountRights_table_of_error
            (h := h.logged .info .privileges _) hrefused)]
          exact trans_of Host.Spares (hlogged _) (allows_spares _ _)

end SecurityPolicy

/-! ## The security service -/

namespace Lsa

/-- A status that is success passes. -/
theorem check_success (call : String) (name : Option String) (h : Host) :
    check success call name h = .ok () h := rfl

/-- Every other status fails, after it was asked what it stands for. -/
theorem check_of_ne {status : Int} (hne : status ≠ success) (call : String) (name : Option String)
    (h : Host) : ∃ e h', check status call name h = .error e h' ∧ h.Spares h' := by
  have hspares := steady_check (R := Host.Spares) status call name
  cases hcheck : check status call name h with
  | error e h' => exact ⟨e, h', rfl, hspares.of_error hcheck⟩
  | ok u h' =>
      unfold check at hcheck
      rw [if_neg hne] at hcheck
      exact nomatch hcheck

section
variable {α : Type} {access handle : Nat} {work : Nat → Run α} {h h₁ h₂ : Host}

/-- The handle is closed after work that ended in a value, -/
theorem withPolicy_of_ok {a : α} (hopened : openPolicy access h = .ok handle h₁)
    (hworked : work handle h₁ = .ok a h₂) :
    withPolicy access work h = .ok a (h₂.noted (.called (.closePolicy handle) none)) := by
  refine (bind_apply_of_ok hopened _).trans ?_
  rw [hworked]
  rfl

/-- and after work that failed. -/
theorem withPolicy_of_error {e : Fault} (hopened : openPolicy access h = .ok handle h₁)
    (hworked : work handle h₁ = .error e h₂) :
    withPolicy access work h = .error e (h₂.noted (.called (.closePolicy handle) none)) := by
  refine (bind_apply_of_ok hopened _).trans ?_
  rw [hworked]
  rfl

end

/-- The call adds the rights that it names, if it is accepted. -/
theorem adds_addRights {texts : List CountedText} (hne : texts ≠ []) (name : String)
    (handle : Nat) :
    Adds .lsa (fun _ => true) (do
      let status ← Run.callLsa (.addRights handle (texts.map CountedText.text)) fun h turn =>
        let added := h.lsa.addRights turn h.lsaAccounts name texts
        ⟨failureOf added.1, added.1, added.2⟩
      check status "LsaAddAccountRights" (some name)) := by
  intro h
  let names := texts.map CountedText.text
  let answer := h.lsa.addRights h.journal.lsaCalls.length h.lsaAccounts name texts
  let h' : Host :=
    { h with
      lsaAccounts := answer.2
      journal := h.journal ++ [.called (.addRights handle names) (failureOf answer.1)] }
  have hanswered : Run.callLsa (.addRights handle names) (fun h turn =>
      let added := h.lsa.addRights turn h.lsaAccounts name texts
      ⟨failureOf added.1, added.1, added.2⟩) h = .ok answer.1 h' := rfl
  rw [bind_apply_of_ok hanswered]
  by_cases hstatus : answer.1 = success
  · rw [hstatus, check_success]
    refine .added ⟨handle, names, fun hnil => hne (List.map_eq_nil_iff.1 hnil), ?_⟩
    have hnone : failureOf answer.1 = none := if_pos hstatus
    rw [List.drop_left, hnone]
    exact List.mem_singleton_self _
  · have hfailed : failureOf answer.1 = some answer.1 := if_neg hstatus
    have hspared : h.Spares h' := by
      refine ⟨rfl, _, rfl, fun handle' names' hmem => ?_⟩
      rw [hfailed] at hmem
      exact nomatch List.mem_singleton.1 hmem
    obtain ⟨e, h'', hcheck, hspares⟩ := check_of_ne hstatus "LsaAddAccountRights" (some name) h'
    rw [hcheck]
    exact trans_of Host.Spares hspared hspares

/-- Closing the handle neither fails nor adds anything. -/
theorem adds_withPolicy (access : Nat) {work : Nat → Run Unit}
    (hwork : ∀ handle, Adds .lsa (fun _ => true) (work handle)) :
    Adds .lsa (fun _ => true) (withPolicy access work) := by
  refine (steady_openPolicy access).bind_adds fun handle h => ?_
  have hadds := hwork handle h
  have hclosed : ∀ h', ∃ h'', closePolicy handle h' = .ok () h'' ∧ h'.Spares h'' := fun h' =>
    ⟨_, rfl, (steady_closePolicy (R := Host.Spares) handle).of_ok rfl⟩
  cases hended : work handle h with
  | error e h' =>
      obtain ⟨h'', hclose, hspares⟩ := hclosed h'
      rw [hended] at hadds
      dsimp only
      rw [bind_apply_of_ok hclose]
      exact trans_of Host.Spares hadds hspares
  | ok u h' =>
      obtain ⟨h'', hclose, hspares⟩ := hclosed h'
      rw [hended] at hadds
      dsimp only
      rw [bind_apply_of_ok hclose]
      exact hadds.trans_spares hspares

/-- Of a set that is not empty, something is handed over. -/
theorem handed_ne_nil {privileges : PrivilegeSet} (hne : privileges.isEmpty = false) :
    handed privileges.constants ≠ [] := by
  intro hnil
  have hempty := PrivilegeSet.toList_eq_nil_iff.1
    (List.map_eq_nil_iff.1 (List.map_eq_nil_iff.1 hnil))
  rw [hne] at hempty
  cases hempty

theorem adds_addAccountRights (name : String) {privileges : PrivilegeSet}
    (hne : privileges.isEmpty = false) :
    Adds .lsa (fun _ => true) (addAccountRights name privileges) := by
  unfold addAccountRights
  rw [hne, if_neg Bool.false_ne_true]
  refine (steady_lookupAccount name).bind_adds fun _ => Adds.bind_quiet
    (adds_withPolicy _ fun handle => adds_addRights (handed_ne_nil hne) name handle) fun _ h => ?_
  exact ⟨(), _, rfl, rfl, (steady_log (R := Host.Spares) .debug .lsa _).of_ok (log_apply _ _ _ h)⟩

end Lsa

/-! ## Grants -/

namespace SecurityPolicy

theorem adds_addMissing (policy : SecurityPolicy) (name : String) (privileges : PrivilegeSet) :
    Adds policy (fun added => !added.isEmpty) (policy.addMissing name privileges) := by
  cases policy with
  | table => exact adds_addMissing_table name privileges
  | lsa =>
      refine (steady_accountRights .lsa name).bind_adds fun held => ?_
      dsimp only
      cases hmissing : (privileges \ held).isEmpty with
      | true =>
          rw [if_pos rfl]
          intro h
          exact SecurityPolicy.Discloses.spared
            ((steady_log .info .privileges _).of_ok (log_apply _ _ _ h))
      | false =>
          rw [if_neg Bool.false_ne_true]
          have hadded : Adds .lsa (fun _ => true)
              (addAccountRights .lsa name (privileges \ held)) :=
            Leads.bind_adds (allows_spares _) fun _ => Lsa.adds_addAccountRights name hmissing
          refine Leads.bind_adds (steady_log _ _ _) fun _ => hadded.bind_quiet fun _ h => ?_
          exact ⟨_, h, rfl, by rw [hmissing]; rfl, refl_of Host.Spares h⟩

/-- **What a grant adds.**  A grant that ends has added privileges exactly if it gives some back, and
one that fails has added none. -/
theorem adds_grant (policy : SecurityPolicy) (store : IdentityStore) (identity : Identity)
    (privileges : PrivilegeSet) :
    Adds policy (fun added => !added.isEmpty) (policy.grant store identity privileges) :=
  (IdentityStore.steady_requireExisting store identity).bind_adds fun _ =>
    (adds_addMissing policy identity.name privileges).mapFault _

end SecurityPolicy

end Provisioning
