/-
# `Provisioning.Proofs.Faults` — in which ways a run can fail

On a host with real programs a run is refused, or the system fails it, or the
operator declines or interrupts it; in all else that can go wrong
(`Capability.Slips`) something is wrong with the host itself:

    overran        asked about an account, the account management program ran too long
    unstartable    a program was to be started with an argument that cannot be handed on
    loginless      the operator's own account was wanted, and nobody can tell who sits there
    nameless       the operator's own account was wanted, and has no name
    policy         the account rights kept in memory were set to fail in that way

Every other place where a program can run too long reports that as a refusal
of its own: creating an account, editing an access list, calling for elevation.
A start that is not possible is reported by none of them.

**Stated here.**  A run fails only so, or as the one who is asked fails
(`orderly_run`), for every backend and every request without empty names.
-/
import Mathlib.Tactic.SplitIfs
import Provisioning.Orchestrator
import Provisioning.Proofs.Account.Table
import Provisioning.Proofs.Growth
import Provisioning.Proofs.Host.Faults

namespace Provisioning

open Run

/-! ## What can be expected of a run -/

/-- The operator was asked last, and declined. -/
def Host.Declined (h : Host) : Prop :=
  ∃ (j : Journal) (q : String), h.journal = j ++ [.asked q false]

/-- Every failure of a run, where `Slips` tells of what is wrong with a host. -/
inductive Expected (Slips : Fault → Host → Prop) : Fault → Host → Prop where
  | handled {e : Fault} (he : e.Handled) (h : Host) : Expected Slips e h
  | declined {h : Host} (hdeclined : h.Declined) :
      Expected Slips (.refused (Refusal.usual .operationCancelled)) h
  | slip {e : Fault} {h : Host} (hslip : Slips e h) : Expected Slips e h

instance (Slips : Fault → Host → Prop) : Tolerates (Expected Slips) := ⟨.handled⟩

namespace Capability

/-- A failure that is neither the operator's decision nor handled, and what is wrong with the host. -/
inductive Slips (c : Capability) : Fault → Host → Prop where
  | overran {executable name : String} {limit : Number} {h : Host}
      (hstore : c.identities = .netUser executable limit)
      (hlast : h.LastCutShort ⟨[executable, "user", name], some limit⟩) :
      c.Slips (.timedOut [executable, "user", name] (some limit)) h
  | unstartable {i : Invocation} {h : Host} (message : String) (hunfit : i.Unfit)
      (hlast : h.LastCutShort i) : c.Slips (.badValue message) h
  | loginless {f : LoginFailure} {h : Host} (hoperator : c.identities.operator h = .error f) :
      c.Slips f.fault h
  | nameless {h : Host} (hoperator : c.identities.operator h = .ok "") :
      c.Slips (.invalid "Identity" [.inField "name" .stringEmpty]) h
  | policy {identities : IdentityStore} {access : AccessControl} {e : Fault} {h : Host}
      (hc : c = .windows identities .table access) (hfailure : h.rights.failure = some e) :
      c.Slips e h

/-- What may be wrong with the host is among what `P` says. -/
class Admits (c : Capability) (P : Fault → Host → Prop) : Prop where
  of_slip : ∀ {e : Fault} {h : Host}, c.Slips e h → P e h

/-- Every failure of a run with the capability, if asking may fail as `F` says. -/
abbrev Foresees (c : Capability) (F : Fault → Host → Prop) : Fault → Host → Prop :=
  Expected fun e h => c.Slips e h ∨ F e h

instance (c : Capability) (F : Fault → Host → Prop) : c.Admits (c.Foresees F) :=
  ⟨fun hslip => .slip (.inl hslip)⟩

instance (c : Capability) (F : Fault → Host → Prop) : ToleratesStarts (c.Foresees F) where
  of_unstartable message hunfit hlast := .slip (.inl (.unstartable message hunfit hlast))

/-- The names that a run takes as they are, given or not, are not empty. -/
structure Named (c : Capability) (request : Request) : Prop where
  runner : request.runner ≠ some ""
  owner : request.cgroupOwner ≠ some ""
  group : ∀ identities filesystem config, c = .linux identities filesystem config →
    groupOf config request ≠ ""

end Capability

/-! ## Accounts -/

namespace IdentityStore

variable {P : Fault → Host → Prop}

theorem handled_unknownAccount (name : String) : (unknownAccount name).Handled :=
  Fault.handled_refuse (by decide) _ _

theorem orderly_makeNamed {name : String} (hne : name ≠ "") (present : Bool)
    (source : IdentitySource) (credential : Option Credential) :
    Orderly P (Run.ofExcept (Identity.make? name present source credential)) := by
  rw [Identity.make?_of_ne hne]
  exact orderly_pure _

/-- Who the operator is does not change by logging. -/
theorem operator_logged (store : IdentityStore) (h : Host) (level : LogLevel) (source : LogSource)
    (message : String) : store.operator (h.logged level source message) = store.operator h := by
  cases store <;> rfl

/-- In the table an account is created only when it is not there, so creating it does not fail. -/
theorem orderly_resolveOrCreate_table {name : String} (hne : name ≠ "") {credential : Credential}
    (hgiven : credential.isGiven = true) :
    Orderly P (resolveOrCreate .table (some name) (some credential)) := by
  refine Orderly.of_leads ?_ fun h e h' herror => ?_
  · have hsteady : Steady (SameBy Host.programs) := steady_sameBy fun h h' hproceeds =>
      hproceeds.programs_eq
    exact steady_resolveOrCreate _ _ _ fun _ _ _ => rfl
  · obtain ⟨i, -, -, -, hgives⟩ := gives_resolveOrCreate (S := h.stores) hne hgiven
    exact absurd herror (hgives.ne_error rfl)

/-! ### Looking accounts up -/

section
variable [Tolerates P]

/-- The program that knows the accounts is the only thing that can fail a look-up. -/
theorem orderly_exists? (c : Capability) [c.Admits P] (name : String) :
    Orderly P (c.identities.exists? name) := by
  cases hstore : c.identities with
  | table => exact orderly_get.bind fun _ => orderly_pure _
  | posix => exact (orderly_uidOf? name).bind fun _ => orderly_pure _
  | netUser executable limit =>
      refine OrderlyOn.bind ((orderly_command _ _ _ _).mono fun e h ⟨hfails, hlast⟩ => ?_)
        fun _ => orderly_pure _
      cases hfails with
      | system e => exact Tolerates.of_handled (.system e) h
      | interrupted => exact Tolerates.of_handled .interrupted h
      | overran hlimit =>
          cases hlimit
          exact Capability.Admits.of_slip (.overran hstore hlast)
      | unstartable message hunfit =>
          have hslip : c.Slips (.badValue message) h := .unstartable message hunfit hlast
          exact Capability.Admits.of_slip hslip

theorem orderly_resolve (c : Capability) [c.Admits P] {name : Option String}
    (hne : name ≠ some "") : Orderly P (c.identities.resolve name) := by
  cases name with
  | some name =>
      have hname : name ≠ "" := fun hempty => hne (congrArg some hempty)
      exact (orderly_exists? c name).bind fun _ =>
        OrderlyOn.ite (orderly_makeNamed hname _ _ _) (orderly_throw_of_handled
          (handled_unknownAccount name))
  | none =>
      intro h hreal
      have hsession := sessionUser_eq c.identities h
      unfold resolve
      dsimp only
      cases hoperator : c.identities.operator h with
      | error f =>
          rw [hoperator] at hsession
          rw [bind_apply_of_error hsession]
          exact ⟨hreal, Capability.Admits.of_slip (.loginless hoperator)⟩
      | ok session =>
          rw [hoperator] at hsession
          rw [bind_apply_of_ok hsession, log_bind]
          by_cases hempty : session = ""
          · subst hempty
            exact ⟨hreal, Capability.Admits.of_slip
              (.nameless ((operator_logged c.identities h _ _ _).trans hoperator))⟩
          · rw [Identity.make?_of_ne hempty]
            exact hreal

theorem orderly_requireExisting (c : Capability) [c.Admits P] (identity : Identity) :
    Orderly P (c.identities.requireExisting identity) := by
  have hunknown := handled_unknownAccount identity.name
  unfold requireExisting
  split
  · exact orderly_throw_of_handled hunknown
  · refine (orderly_exists? c _).bind fun found => ?_
    cases found with
    | true => exact orderly_pure _
    | false => exact orderly_throw_of_handled hunknown

end

/-! ### Creating accounts -/

section
variable [ToleratesStarts P]

theorem orderly_createWithProgram (executable : String) (limit : Number)
    (name : String) (credential : Credential) :
    Orderly P (createWithProgram executable limit name credential) := by
  have hreported : ∀ cause, (createWithProgram.couldNotRun executable name cause).Handled :=
    fun _ => Fault.handled_refuseFrom (by decide) _ _ _
  refine OrderlyOn.bind (orderly_command_reported _ _ _ _ (fun _ => ⟨_, rfl, hreported _⟩)
    (fun _ _ => ⟨_, rfl, hreported _⟩) rfl fun _ => rfl) fun out => ?_
  split
  · exact orderly_log _ _ _
  · exact orderly_refuse (by decide) _ _

theorem orderly_create {store : IdentityStore} (hstore : store ≠ .table)
    (name : String) (credential : Credential) : Orderly P (store.create name credential) := by
  refine OrderlyOn.bind (orderly_note _) fun _ => ?_
  cases store with
  | table => exact absurd rfl hstore
  | netUser executable limit => exact orderly_createWithProgram executable limit name credential
  | posix => exact orderly_refuse (by decide) _ _

theorem orderly_resolveOrCreate (c : Capability) [c.Admits P]
    (name : Option String) (credential : Option Credential) :
    Orderly P (c.identities.resolveOrCreate name credential) := by
  cases hpassword : credential.filter Credential.isGiven with
  | none =>
      unfold resolveOrCreate
      rw [hpassword]
      exact orderly_refuse (by decide) _ _
  | some password =>
      cases hname : given name with
      | none =>
          unfold resolveOrCreate
          rw [hpassword, hname]
          exact orderly_refuse (by decide) _ _
      | some n =>
          obtain ⟨rfl, hne⟩ := given_eq_some_iff.1 hname
          obtain ⟨rfl, hgiven⟩ := Option.filter_eq_some_iff.1 hpassword
          by_cases hstore : c.identities = .table
          · rw [hstore]
            exact orderly_resolveOrCreate_table hne hgiven
          · unfold resolveOrCreate
            rw [hpassword, hname]
            refine (orderly_exists? c n).bind fun found => ?_
            cases found with
            | true => exact OrderlyOn.bind (orderly_log _ _ _) fun _ => orderly_makeNamed hne _ _ _
            | false =>
                exact OrderlyOn.bind (orderly_log _ _ _) fun _ =>
                  (orderly_create hstore n password).bind fun _ => orderly_makeNamed hne _ _ _

end

end IdentityStore

/-! ## Privileges -/

namespace Lsa

variable {P : Fault → Host → Prop} [Tolerates P]

theorem handled_lookupFailure (name : String) (error : Int) : (lookupFailure name error).Handled :=
  Fault.handled_refuse (by decide) _ _

theorem orderly_check (status : Int) (call : String) (name : Option String) :
    Orderly P (check status call name) := by
  unfold check
  split
  · exact orderly_pure _
  · exact (orderly_callLsa _ _).bind fun _ => orderly_refuse (by decide) _ _

theorem orderly_lookupAccount (name : String) : Orderly P (lookupAccount name) := by
  refine (orderly_callLsa _ _).bind fun error => ?_
  split
  · exact orderly_refuse (by decide) _ _
  · split
    · exact orderly_throw_of_handled (handled_lookupFailure name _)
    · refine (orderly_callLsa _ _).bind fun failed => ?_
      cases failed with
      | none => exact orderly_pure _
      | some error => exact orderly_throw_of_handled (handled_lookupFailure name error)

theorem orderly_openPolicy (access : Nat) : Orderly P (openPolicy access) :=
  (orderly_callLsa _ _).bind fun _ => (orderly_check _ _ _).bind fun _ => orderly_pure _

omit [Tolerates P] in
theorem orderly_closePolicy (handle : Nat) : Orderly P (closePolicy handle) := orderly_callLsa _ _

/-- The work fails as it does; closing the handle never fails. -/
theorem orderly_withPolicy {α : Type} (access : Nat) {work : Nat → Run α}
    (hwork : ∀ handle, Orderly (fun e _ => e.Handled) (work handle)) :
    Orderly P (withPolicy access work) :=
  (orderly_openPolicy access).bind fun handle =>
    Orderly.either (hwork handle) (fun _ => (orderly_closePolicy handle).bind fun _ => orderly_pure _)
      fun _ ⟨_, hhandled⟩ =>
        (orderly_closePolicy handle).bind fun _ => orderly_throw_of_handled hhandled

theorem orderly_accountRights (name : String) : Orderly P (accountRights name) := by
  refine (orderly_lookupAccount name).bind fun _ => orderly_withPolicy _ fun handle => ?_
  refine (orderly_callLsa _ _).bind fun listed => ?_
  split
  · exact orderly_pure _
  · exact (orderly_check _ _ _).bind fun _ => (orderly_callLsa _ _).bind fun _ => orderly_pure _

theorem orderly_addAccountRights (name : String) (privileges : PrivilegeSet) :
    Orderly P (addAccountRights name privileges) := by
  unfold addAccountRights
  split
  · exact orderly_pure _
  · refine (orderly_lookupAccount name).bind fun _ => OrderlyOn.bind ?_ fun _ => orderly_log _ _ _
    exact orderly_withPolicy _ fun handle => (orderly_callLsa _ _).bind fun _ => orderly_check _ _ _

end Lsa

namespace SecurityPolicy

variable {P : Fault → Host → Prop} [Tolerates P]

theorem orderly_accountRights (policy : SecurityPolicy) (name : String) :
    Orderly P (policy.accountRights name) := by
  cases policy with
  | table => exact orderly_get.bind fun _ => orderly_pure _
  | lsa => exact Lsa.orderly_accountRights name

section
variable (identities : IdentityStore) (access : AccessControl)

/-- The table fails as it was set to. -/
theorem orderly_addAccountRights (policy : SecurityPolicy)
    [(Capability.windows identities policy access).Admits P] (name : String)
    (privileges : PrivilegeSet) : Orderly P (policy.addAccountRights name privileges) := by
  refine OrderlyOn.bind (orderly_note _) fun _ => ?_
  cases policy with
  | lsa => exact Lsa.orderly_addAccountRights name privileges
  | table =>
      intro h hreal
      dsimp only
      rw [bind_eq_of_ok (show (get : Run Host) h = .ok h h from rfl)]
      unfold RightsTable.add
      cases hfailure : h.rights.failure with
      | none => exact hreal
      | some e =>
          have hslip : (Capability.windows identities .table access).Slips e h :=
            .policy rfl hfailure
          exact ⟨hreal, Capability.Admits.of_slip hslip⟩

theorem orderly_grant (policy : SecurityPolicy)
    [(Capability.windows identities policy access).Admits P] (identity : Identity)
    (privileges : PrivilegeSet) : Orderly P (policy.grant identities identity privileges) := by
  refine (IdentityStore.orderly_requireExisting (.windows identities policy access) identity).bind
    fun _ => Orderly.mapFault (P := P) ?_ ?_
  · refine (orderly_accountRights policy identity.name).bind fun held => ?_
    dsimp only
    split
    · exact OrderlyOn.bind (orderly_log _ _ _) fun _ => orderly_pure _
    · exact OrderlyOn.bind (orderly_log _ _ _) fun _ =>
        (orderly_addAccountRights identities access policy _ _).bind
          fun _ => orderly_pure _
  · intro e h hforeseen
    cases e with
    | system e => exact Tolerates.of_handled (Fault.handled_refuseFrom (by decide) _ _ _) h
    | _ => exact hforeseen

end

end SecurityPolicy

/-! ## Directories -/

namespace AccessControl

section
variable {P : Fault → Host → Prop} [ToleratesStarts P]

theorem orderly_runEditor (executable : String) (limit : Number) (program : String)
    (args : List String) (path : String) :
    Orderly P (runEditor executable limit (program :: args) path) := by
  have hreported : ∀ cause, (runEditor.couldNotRun executable path cause).Handled :=
    fun _ => Fault.handled_refuseFrom (by decide) _ _ _
  refine OrderlyOn.bind (orderly_command_reported _ _ _ _ (fun _ => ⟨_, rfl, hreported _⟩)
    (fun _ _ => ⟨_, rfl, hreported _⟩) rfl fun _ => rfl) fun out => ?_
  split
  · exact orderly_pure _
  · exact orderly_refuse (by decide) _ _

theorem orderly_entries (access : AccessControl) (path : String) :
    Orderly P (access.entries path) := by
  cases access with
  | table => exact orderly_get.bind fun _ => orderly_pure _
  | icacls executable limit => exact (orderly_runEditor _ _ _ _ _).bind fun _ => orderly_pure _

theorem handled_of_setEntry {t : AccessTable} {path name : String} {rights : AccessRights}
    {e : Fault} (herror : t.setEntry path name rights = .error e) : e.Handled := by
  unfold AccessTable.setEntry at herror
  split at herror
  · cases herror
    exact Fault.handled_refuse (by decide) _ _
  · exact nomatch herror

theorem orderly_setEntry (access : AccessControl) (path name : String) (rights : AccessRights) :
    Orderly P (access.setEntry path name rights) := by
  refine OrderlyOn.bind (orderly_note _) fun _ => ?_
  cases access with
  | table =>
      exact orderly_get.bind fun _ =>
        (orderly_ofExcept fun _ herror => Tolerates.of_handled (handled_of_setEntry herror)).bind
          fun _ => orderly_modify fun _ => rfl
  | icacls executable limit => exact (orderly_runEditor _ _ _ _ _).bind fun _ => orderly_pure _

end

section
variable {P : Fault → Host → Prop} [ToleratesStarts P] (c : Capability) [c.Admits P]

theorem orderly_grant (access : AccessControl) (identity : Identity) (path : String)
    (rights : AccessRights) :
    Orderly P (access.grant c.identities identity path rights) := by
  refine (IdentityStore.orderly_requireExisting c identity).bind fun _ =>
    (orderly_pathExists _).bind fun found => ?_
  split
  · exact orderly_refuse (by decide) _ _
  · refine (orderly_entries access path).bind fun entries => ?_
    split
    · exact OrderlyOn.bind (orderly_log _ _ _) fun _ => orderly_pure _
    · exact OrderlyOn.bind (orderly_log _ _ _) fun _ =>
        (orderly_setEntry access _ _ _).bind fun _ => orderly_pure _

theorem orderly_attemptAll (access : AccessControl) (identity : Identity) (rights : AccessRights) :
    ∀ paths : List String,
      Orderly P (access.attemptAll c.identities identity rights paths)
  | [] => orderly_pure _
  | path :: rest => by
      have ih := orderly_attemptAll access identity rights rest
      refine (orderly_grant c access identity path rights).catchRefusal.bind fun outcome => ?_
      cases outcome with
      | ok g => exact ih.bind fun _ => orderly_pure _
      | error r => exact OrderlyOn.bind (orderly_log _ _ _) fun _ => ih.bind fun _ => orderly_pure _

theorem orderly_grantAll (access : AccessControl) (identity : Identity) (paths : List String)
    (rights : AccessRights) :
    Orderly P (access.grantAll c.identities identity paths rights) := by
  refine (IdentityStore.orderly_requireExisting c identity).bind fun _ =>
    (orderly_attemptAll c access identity rights paths).bind fun results => ?_
  have hkind : (Refusal.ofFailures none results.failures).kind ≠ .operationCancelled := by
    simp [Refusal.ofFailures]
  split
  · exact orderly_pure _
  · exact orderly_throw_of_handled (.refused hkind)

end

end AccessControl

/-! ## Isolation groups -/

namespace CgroupFilesystem

variable {P : Fault → Host → Prop}

section
variable [Tolerates P]

theorem orderly_requireUser (owner : String) : Orderly P (requireUser owner) := by
  refine (orderly_uidOf? owner).bind fun uid => ?_
  cases uid with
  | none => exact orderly_throw_of_handled (IdentityStore.handled_unknownAccount owner)
  | some uid => exact orderly_pure _

theorem handled_denial (path : Path) : (CgroupTable.denial path).Handled :=
  Fault.handled_refuse (by decide) _ _

theorem handled_notMounted (path : Path) : (notMounted path).Handled :=
  Fault.handled_refuse (by decide) _ _

theorem orderly_tableEnsureDirectory (path : Path) : Orderly P (tableEnsureDirectory path) := by
  refine orderly_get.bind fun h => ?_
  dsimp only
  split
  · exact orderly_throw_of_handled .interrupted
  · refine OrderlyOn.bind (orderly_modify fun _ => rfl) fun _ => ?_
    split
    · exact orderly_throw_of_handled (handled_denial path)
    · exact OrderlyOn.bind (orderly_modify fun _ => rfl) fun _ => orderly_pure _

theorem orderly_tableChangeOwner (path : Path) (owner : String) :
    Orderly P (tableChangeOwner path owner) := by
  refine orderly_get.bind fun h => OrderlyOn.bind (orderly_modify fun _ => rfl) fun _ => ?_
  split
  · exact orderly_throw_of_handled (handled_denial path)
  · exact orderly_modify fun _ => rfl

/-- Every error of making the directory stays one, or is reported as a refusal. -/
theorem orderly_directEnsureDirectory (path : Path) : Orderly P (directEnsureDirectory path) := by
  refine (orderly_isDirectory path).bind fun found => OrderlyOn.ite (orderly_pure _) ?_
  intro h hreal
  dsimp only
  cases hmk : Run.mkdir path h with
  | ok u h' => exact (orderly_mkdir (P := fun e _ => e.Handled) path).of_ok hreal hmk
  | error e h' =>
      obtain ⟨hreal', hhandled⟩ :=
        (orderly_mkdir (P := fun e _ => e.Handled) path).of_error hreal hmk
      cases e with
      | system e =>
          dsimp only
          split_ifs
          · exact hreal'
          · exact ⟨hreal', Tolerates.of_handled (handled_notMounted path) h'⟩
          · exact ⟨hreal', Tolerates.of_handled (Fault.handled_refuseFrom (by decide) _ _ _) h'⟩
          · exact ⟨hreal', Tolerates.of_handled (.system e) h'⟩
      | _ => exact ⟨hreal', Tolerates.of_handled hhandled h'⟩

theorem orderly_chownEach (start : Path) (uid : Int) :
    ∀ ps : List Path, Orderly P (chownEach start uid ps)
  | [] => orderly_pure _
  | p :: ps => (orderly_chown start p uid).bind fun _ => orderly_chownEach start uid ps

theorem orderly_directChangeOwner (path : Path) (owner : String) :
    Orderly P (directChangeOwner path owner) := by
  refine (orderly_requireUser owner).bind fun uid =>
    Orderly.mapFault (P := fun e _ => e.Handled) ?_ fun e h hhandled => ?_
  · exact (orderly_chown path path uid).bind fun _ =>
      orderly_get.bind fun h => orderly_chownEach path uid (h.tree.walk path)
  · cases hhandled with
    | refused hkind => exact Tolerates.of_handled (.refused hkind) h
    | interrupted => exact Tolerates.of_handled .interrupted h
    | system e =>
        dsimp only
        split
        · exact Tolerates.of_handled (Fault.handled_refuseFrom (by decide) _ _ _) h
        · exact Tolerates.of_handled (.system e) h

theorem orderly_treeOwnerOf (path : Path) : Orderly P (treeOwnerOf path) := by
  refine (orderly_entryAt path).bind fun n => ?_
  cases n with
  | none => exact orderly_pure _
  | some n => exact (orderly_userOf? n.uid).bind fun _ => orderly_pure _

theorem orderly_ownerOf (fs : CgroupFilesystem) (path : Path) : Orderly P (fs.ownerOf path) := by
  cases fs with
  | table => exact orderly_get.bind fun _ => orderly_pure _
  | direct => exact orderly_treeOwnerOf path
  | viaSudo executable limit => exact orderly_treeOwnerOf path

end

/-! ### Through the elevating program -/

section
variable [ToleratesStarts P]

/-- The program that proves who the operator is has no limit, so it cannot run too long. -/
theorem orderly_validateElevation (executable : String) :
    Orderly P (validateElevation executable) := by
  refine orderly_get.bind fun h => ?_
  split
  · exact orderly_pure _
  · refine OrderlyOn.bind ((orderly_startProgram _ _).mapFault fun e h ⟨hfails, hlast⟩ => ?_)
      fun out => ?_
    · cases hfails with
      | system e => exact Tolerates.of_handled (Fault.handled_refuseFrom (by decide) _ _ _) h
      | interrupted => exact Tolerates.of_handled .interrupted h
      | overran hlimit => exact nomatch hlimit
      | unstartable message hunfit => exact ToleratesStarts.of_unstartable message hunfit hlast
    · split
      · exact orderly_modify fun _ => rfl
      · exact orderly_refuse (by decide) _ _

theorem orderly_runElevated (executable : String) (limit : Number) (call : String)
    (args : List String) (path : Path) : Orderly P (runElevated executable limit call args path) := by
  have hreported : ∀ cause, (runElevated.couldNotRun executable call path cause).Handled :=
    fun _ => Fault.handled_refuseFrom (by decide) _ _ _
  refine (orderly_validateElevation executable).bind fun _ =>
    OrderlyOn.bind (orderly_command_reported _ _ _ _ (fun _ => ⟨_, rfl, hreported _⟩)
      (fun _ _ => ⟨_, rfl, hreported _⟩) rfl fun _ => rfl) fun out => ?_
  split
  · exact orderly_pure _
  · exact orderly_refuse (by decide) _ _

theorem orderly_sudoEnsureDirectory (executable : String) (limit : Number)
    (path : Path) : Orderly P (sudoEnsureDirectory executable limit path) := by
  refine (orderly_isDirectory path).bind fun found => ?_
  split
  · exact orderly_pure _
  · refine (orderly_isDirectory path.parent).bind fun mounted => ?_
    split
    · exact (orderly_runElevated _ _ _ _ _).bind fun _ => orderly_pure _
    · exact orderly_throw_of_handled (handled_notMounted path)

theorem orderly_sudoChangeOwner (executable : String) (limit : Number) (path : Path)
    (owner : String) : Orderly P (sudoChangeOwner executable limit path owner) :=
  (orderly_requireUser owner).bind fun _ => orderly_runElevated _ _ _ _ _

theorem orderly_ensureDirectory (fs : CgroupFilesystem) (path : Path) :
    Orderly P (fs.ensureDirectory path) := by
  refine OrderlyOn.bind (orderly_note _) fun _ => ?_
  cases fs with
  | table => exact orderly_tableEnsureDirectory path
  | direct => exact orderly_directEnsureDirectory path
  | viaSudo executable limit => exact orderly_sudoEnsureDirectory executable limit path

theorem orderly_changeOwner (fs : CgroupFilesystem) (path : Path) (owner : String) :
    Orderly P (fs.changeOwner path owner) := by
  refine OrderlyOn.bind (orderly_note _) fun _ => ?_
  cases fs with
  | table => exact orderly_tableChangeOwner path owner
  | direct => exact orderly_directChangeOwner path owner
  | viaSudo executable limit => exact orderly_sudoChangeOwner executable limit path owner

end

end CgroupFilesystem

namespace CgroupProvisioner

section
variable {P : Fault → Host → Prop} [ToleratesStarts P] (p : CgroupProvisioner)

theorem orderly_provisionOne (owner : String) (path : Path) :
    Orderly P (p.provisionOne owner path) := by
  have hrest : Orderly P (do
      p.filesystem.changeOwner path owner
      Run.log .debug .cgroups ("Owner of " ++ path.toString ++ " set to '" ++ owner ++ "'")) :=
    (CgroupFilesystem.orderly_changeOwner p.filesystem path owner).bind fun _ => orderly_log _ _ _
  refine (CgroupFilesystem.orderly_ensureDirectory p.filesystem path).bind fun isNew => ?_
  dsimp only
  split <;> exact OrderlyOn.bind (orderly_log _ _ _) fun _ => hrest

theorem orderly_provisionEach (owner : String) :
    ∀ paths : List Path, Orderly P (p.provisionEach owner paths)
  | [] => orderly_pure _
  | path :: rest =>
      (orderly_provisionOne p owner path).bind fun _ => orderly_provisionEach owner rest

theorem orderly_notOwned (owner : String) :
    ∀ specs : List CgroupSpec, Orderly P (p.notOwned owner specs)
  | [] => orderly_pure _
  | s :: rest =>
      (CgroupFilesystem.orderly_ownerOf p.filesystem (s.path p.root)).bind fun _ =>
        (orderly_notOwned owner rest).bind fun _ => orderly_pure _

omit [ToleratesStarts P] in
/-- A group with a name has directories. -/
theorem orderly_forGroup {group : String} (hgroup : group ≠ "") :
    Orderly P (Run.ofExcept (CgroupSpec.forGroup group)) := by
  rw [CgroupSpec.forGroup_of_ne hgroup]
  exact orderly_pure _

theorem orderly_verify {group : String} (hgroup : group ≠ "") (owner : String) :
    Orderly P (p.verify group owner) :=
  (orderly_forGroup hgroup).bind fun specs => orderly_notOwned p owner specs

end

/-- Owners are looked up among the accounts of the platform. -/
theorem orderly_provision (c : Capability) {F : Fault → Host → Prop} {p : CgroupProvisioner}
    (hidentities : p.identities = some c.identities) {group : String} (hgroup : group ≠ "")
    (owner : String) : Orderly (c.Foresees F) (p.provision group owner) := by
  have hknown : Orderly (c.Foresees F) (p.ownerIsKnown owner) := by
    unfold ownerIsKnown
    rw [hidentities]
    exact OrderlyOn.ite (orderly_pure _) (IdentityStore.orderly_exists? c owner)
  refine hknown.bind fun known => ?_
  dsimp only
  split
  · exact orderly_throw_of_handled (IdentityStore.handled_unknownAccount owner)
  · exact (orderly_forGroup hgroup).bind fun _ =>
      (orderly_provisionEach p owner _).bind fun _ => orderly_pure _

end CgroupProvisioner

/-! ## The platforms -/

namespace Capability

variable (c : Capability) {F : Fault → Host → Prop} {request : Request}

theorem orderly_validate (hnamed : c.Named request) :
    Orderly (c.Foresees F) (c.validate request) := by
  cases c with
  | windows identities policy access =>
      unfold validate
      dsimp only
      cases hrunner : given request.runner with
      | none => exact orderly_pure _
      | some runner =>
          have hne : (some runner : Option String) ≠ some "" := fun hempty =>
            (given_eq_some_iff.1 hrunner).2 (Option.some.inj hempty)
          exact OrderlyOn.ite (orderly_pure _)
            ((IdentityStore.orderly_resolve (.windows identities policy access) hne).bind
              fun _ => orderly_pure _)
  | linux identities filesystem config =>
      have hresolve : Orderly ((linux identities filesystem config).Foresees F) (do
          let _ ← identities.resolve request.cgroupOwner
          return ()) :=
        (IdentityStore.orderly_resolve (.linux identities filesystem config) hnamed.owner).bind
          fun _ => orderly_pure _
      exact OrderlyOn.ite (OrderlyOn.bind (orderly_refuse (by decide) _ _) fun _ => hresolve)
        hresolve

theorem orderly_describe (hnamed : c.Named request) :
    Orderly (c.Foresees F) (c.describe request) := by
  cases c with
  | windows identities policy access => exact orderly_pure _
  | linux identities filesystem config =>
      have hrest : ∀ owner : String, Orderly ((linux identities filesystem config).Foresees F) (do
          let specs ← Run.ofExcept (CgroupSpec.forGroup (groupOf config request))
          return specs.map fun s => groupLine owner (s.path config.cgroupRoot)) :=
        fun owner => (CgroupProvisioner.orderly_forGroup (hnamed.group _ _ _ rfl)).bind
          fun _ => orderly_pure _
      unfold describe
      dsimp only
      cases given request.cgroupOwner with
      | some owner => exact hrest owner
      | none =>
          have hnone : (none : Option String) ≠ some "" := nofun
          exact (IdentityStore.orderly_resolve (.linux identities filesystem config) hnone).bind
            fun session => hrest session.name

theorem orderly_runnerOf (hrunner : request.runner ≠ some "") (target : Option Identity) :
    Orderly (c.Foresees F) (runnerOf c.identities request target) := by
  have hresolve : Orderly (c.Foresees F) (c.identities.resolve request.runner) :=
    IdentityStore.orderly_resolve c hrunner
  unfold runnerOf
  split
  · exact OrderlyOn.ite (orderly_pure _) hresolve
  · exact hresolve

theorem orderly_provisionRunner {identities : IdentityStore} {policy : SecurityPolicy}
    {access : AccessControl} (hrunner : request.runner ≠ some "") (target : Option Identity) :
    Step.Orderly ((windows identities policy access).Foresees F)
      (provisionRunner identities policy request target) :=
  (Step.orderly_ofRun (orderly_runnerOf (windows identities policy access) hrunner target)).bind
    fun runner => (Step.orderly_report _).bind fun _ =>
      (Step.orderly_ofRun (SecurityPolicy.orderly_grant identities access policy runner _)).bind
        fun _ => Step.orderly_report _

theorem handled_noTarget (request : Request) : (noTarget request).Handled :=
  Fault.handled_refuse (by decide) _ _

theorem orderly_provisionDirectories {P : Fault → Host → Prop} [ToleratesStarts P] [c.Admits P]
    (access : AccessControl) (request : Request) (target : Option Identity) :
    Step.Orderly P (provisionDirectories c.identities access request target) := by
  cases target with
  | none => exact orderly_throw_of_handled (handled_noTarget request)
  | some target =>
      exact (Step.orderly_ofRun (orderly_log _ _ _)).bind fun _ =>
        (Step.orderly_ofRun (AccessControl.orderly_grantAll c access target _ _)).bind
          fun _ => Step.orderly_report _

theorem orderly_provisionGroup {identities : IdentityStore} {filesystem : CgroupFilesystem}
    {config : Config} (hnamed : (linux identities filesystem config).Named request) :
    Step.Orderly ((linux identities filesystem config).Foresees F)
      (provisionGroup identities filesystem config request) := by
  have hgroup := hnamed.group _ _ _ rfl
  refine (Step.orderly_ofRun (IdentityStore.orderly_resolve (linux identities filesystem config)
    hnamed.owner)).bind fun owner => (Step.orderly_report _).bind fun _ =>
      (Step.orderly_ofRun (orderly_log _ _ _)).bind fun _ =>
        (Step.orderly_ofRun (CgroupProvisioner.orderly_provision _ rfl hgroup owner.name)).bind
          fun paths => (Step.orderly_report _).bind fun _ => OrderlyOn.ite ?_ (orderly_pure _)
  exact (Step.orderly_ofRun (CgroupProvisioner.orderly_verify _ hgroup _)).bind fun wrong =>
    OrderlyOn.ite (orderly_pure _)
      (orderly_throw_of_handled (Fault.handled_refuse (by decide) _ _))

theorem orderly_provision (hnamed : c.Named request) (target : Option Identity) :
    Step.Orderly (c.Foresees F) (c.provision request target) := by
  cases c with
  | linux identities filesystem config => exact orderly_provisionGroup hnamed
  | windows identities policy access =>
      have hdirectories : Step.Orderly ((windows identities policy access).Foresees F)
          (if !request.directories.isEmpty then
            provisionDirectories identities access request target
          else pure ()) :=
        OrderlyOn.ite (orderly_provisionDirectories (windows identities policy access) access
          request target) (orderly_pure _)
      exact OrderlyOn.ite ((orderly_provisionRunner hnamed.runner target).bind
        fun _ => hdirectories) hdirectories

end Capability

/-! ## Runs -/

/-- Whoever is asked answers, or asking fails as is handled, or as `F` says. -/
def Confirmation.Orderly (F : Fault → Host → Prop) (ask : Confirmation) : Prop :=
  ∀ q, Run.Orderly (fun e h => e.Handled ∨ F e h) (ask q)

namespace Orchestrator

variable {P F : Fault → Host → Prop} [Tolerates P] {o : Orchestrator} {request : Request}

theorem orderly_missingDirectories :
    ∀ paths : List String, Orderly P (missingDirectories paths)
  | [] => orderly_pure _
  | _ :: rest =>
      (orderly_pathExists _).bind fun _ =>
        (orderly_missingDirectories rest).bind fun _ => orderly_pure _

theorem handled_of_checkOptions {e : Fault} (herror : checkOptions request = .error e) :
    e.Handled := by
  unfold checkOptions at herror
  split at herror
  · split at herror
    · cases herror
      exact Fault.handled_refuse (by decide) _ _
    · split at herror
      · cases herror
        exact Fault.handled_refuse (by decide) _ _
      · exact nomatch herror
  · exact nomatch herror
  · split at herror
    · exact nomatch herror
    · cases herror
      exact Capability.handled_noTarget request

theorem orderly_validate (hnamed : o.capability.Named request) :
    Orderly (o.capability.Foresees F) (o.validate request) := by
  have hcapability : Orderly (o.capability.Foresees F) (o.capability.validate request) :=
    o.capability.orderly_validate hnamed
  unfold validate
  refine OrderlyOn.bind
    (orderly_ofExcept fun _ herror => Tolerates.of_handled (handled_of_checkOptions herror))
    fun _ => (orderly_missingDirectories _).bind fun missing => ?_
  cases huser : given request.user with
  | none =>
      exact OrderlyOn.ite (OrderlyOn.bind (orderly_refuse (by decide) _ _) fun _ => hcapability)
        hcapability
  | some user =>
      have hne : (some user : Option String) ≠ some "" := fun hempty =>
        (given_eq_some_iff.1 huser).2 (Option.some.inj hempty)
      have hresolve := (IdentityStore.orderly_resolve o.capability hne).bind fun _ => hcapability
      exact OrderlyOn.ite (OrderlyOn.bind (orderly_refuse (by decide) _ _) fun _ => hresolve)
        hresolve

/-- What is asked last is written down last. -/
theorem orderly_answered (c : Capability) (q : String) (answer : Bool) :
    Orderly (c.Foresees F) (do
      Run.note (.asked q answer)
      if answer then return () else throw (.refused (Refusal.usual .operationCancelled))) := by
  intro h hreal
  rw [note_bind]
  cases answer with
  | true => exact hreal
  | false => exact ⟨hreal, .declined ⟨h.journal, q, rfl⟩⟩

theorem orderly_confirm (hask : ∀ ask, o.confirmation = some ask → ask.Orderly F)
    (hnamed : o.capability.Named request) :
    Orderly (o.capability.Foresees F) (o.confirm request) := by
  unfold confirm
  refine OrderlyOn.ite (orderly_pure _) ?_
  cases hconfirmation : o.confirmation with
  | none => exact orderly_pure _
  | some ask =>
      refine (o.capability.orderly_describe hnamed).bind fun plan =>
        OrderlyOn.ite (orderly_pure _) ?_
      refine OrderlyOn.bind ((hask ask hconfirmation _).mono fun e h hfails => ?_)
        fun answer => orderly_answered _ _ answer
      rcases hfails with he | hfails
      · exact .handled he h
      · exact .slip (.inr hfails)

theorem orderly_resolveTarget (o : Orchestrator) (request : Request) :
    Step.Orderly (o.capability.Foresees F) (o.resolveTarget request) := by
  unfold resolveTarget
  have hnone : (none : Option String) ≠ some "" := nofun
  refine OrderlyOn.ite ?_ ?_
  · exact (Step.orderly_ofRun (IdentityStore.orderly_resolveOrCreate o.capability _ _)).bind
      fun _ => (Step.orderly_report _).bind fun _ => orderly_pure _
  · split
    · rename_i huser
      obtain ⟨user, huser⟩ := Option.isSome_iff_exists.1 huser
      obtain ⟨hname, hne⟩ := given_eq_some_iff.1 huser
      have hsome : request.user ≠ some "" := by
        rw [hname]
        exact fun hempty => hne (Option.some.inj hempty)
      have hresolve : Orderly (o.capability.Foresees F)
          (o.capability.identities.resolve request.user) :=
        IdentityStore.orderly_resolve o.capability hsome
      exact (Step.orderly_ofRun hresolve).bind fun _ =>
        (Step.orderly_report _).bind fun _ => orderly_pure _
    · exact OrderlyOn.ite
        ((Step.orderly_ofRun (IdentityStore.orderly_resolve o.capability hnone)).bind fun _ =>
          (Step.orderly_report _).bind fun _ => orderly_pure _) (orderly_pure _)

theorem orderly_apply (hnamed : o.capability.Named request) :
    Step.Orderly (o.capability.Foresees F) (o.apply request) :=
  (orderly_resolveTarget o request).bind fun target =>
    (o.capability.orderly_provision hnamed target).bind fun _ =>
      Step.orderly_ofRun (orderly_log _ _ _)

/-- **Every failure of a run is expected.**  On a host with real programs it is a refusal or an error
of the system, the operator declined or interrupted, asking failed as it may, or something is wrong
with the host itself. -/
theorem orderly_run (hask : ∀ ask, o.confirmation = some ask → ask.Orderly F)
    (hnamed : o.capability.Named request) :
    OrderlyOn Session.host (o.capability.Foresees F) (o.run request) := by
  intro s hreal
  have hconsent : Orderly (o.capability.Foresees F)
      (do o.validate request; o.confirm request : Run Unit) :=
    (orderly_validate hnamed).bind fun _ => orderly_confirm hask hnamed
  unfold run
  cases hbegun : (do o.validate request; o.confirm request : Run Unit) s.host with
  | error e h => exact hconsent.of_error hreal hbegun
  | ok u h =>
      dsimp only
      have hbegin := hconsent.of_ok hreal hbegun
      have hrest : Step.Orderly (o.capability.Foresees F) (o.apply request) := orderly_apply hnamed
      cases happly : o.apply request ⟨h, { platform := o.capability.name }⟩ with
      | error e p => exact hrest.of_error hbegin happly
      | ok v p => exact hrest.of_ok hbegin happly

end Orchestrator

end Provisioning
