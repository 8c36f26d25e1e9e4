/-
# `Provisioning.Proofs.Growth` — what the operations do to a host

Every operation on the accounts, the privileges, the directories and the
isolation groups leads along a steady relation (`Steady`), for every backend,
as soon as that allows the changes that the operation asks for.  Looking
something up asks for none.  Where an operation edits neither the table of
accounts nor that of access lists, a serving relation will do (`Serving`).

    resolveOrCreate     the creation of the account named
    grant privileges    privileges among those that were to be granted
    grant directories   the given rights, on a path of the list
    provision a group   a directory of the group, made and given to the owner

No statement is about what a backend then does with the change, or whether it
succeeds: a change is asked for before it is attempted.  What the stages of a
run write into its report is told at the end.
-/
import Mathlib.Tactic.SplitIfs
import Provisioning.Orchestrator
import Provisioning.Proofs.Host.Growth

namespace Provisioning

open Run

variable {R : Host → Host → Prop}

/-! ## Accounts -/

namespace IdentityStore

section
variable [Serving R]

theorem steady_exists? (store : IdentityStore) (name : String) : Leads R (store.exists? name) := by
  cases store with
  | table => exact leads_get.bind fun _ => leads_pure _
  | netUser executable limit => exact (steady_command _ _ _).bind fun _ => leads_pure _
  | posix => exact (leads_uidOf? name).bind fun _ => leads_pure _

theorem steady_resolve (store : IdentityStore) (name : Option String) :
    Leads R (store.resolve name) := by
  cases name with
  | none =>
      exact (leads_sessionUser store).bind fun _ =>
        Leads.bind (steady_log _ _ _) fun _ => leads_ofExcept _
  | some name =>
      exact (steady_exists? store name).bind fun _ => Leads.ite (leads_ofExcept _) (leads_throw _)

theorem steady_requireExisting (store : IdentityStore) (identity : Identity) :
    Leads R (store.requireExisting identity) := by
  unfold requireExisting
  split
  · exact leads_throw _
  · refine (steady_exists? store _).bind fun found => ?_
    cases found with
    | true => exact leads_pure _
    | false => exact leads_throw _

theorem steady_createWithProgram (executable : String) (limit : Number) (name : String)
    (credential : Credential) :
    Leads R (createWithProgram executable limit name credential) := by
  refine ((steady_command _ _ _).mapFault _).bind fun out => ?_
  split
  · exact steady_log _ _ _
  · exact leads_refuse _ _ _

/-- In the table a new account is an edit of the accounts alone. -/
theorem leads_create_table {name : String} (credential : Credential)
    (hallows : Allows R (.createAccount name))
    (haccounts : ∀ (h : Host) (accounts : AccountTable), R h { h with accounts }) :
    Leads R (create .table name credential) :=
  Leads.bind hallows fun _ => leads_get.bind fun _ => (leads_ofExcept _).bind fun _ h =>
    haccounts h _

/-- Resolving leads wherever creating the account does. -/
theorem leads_resolveOrCreate (store : IdentityStore) (name : Option String)
    (credential : Option Credential)
    (hcreate : ∀ n password, given name = some n → Leads R (store.create n password)) :
    Leads R (store.resolveOrCreate name credential) := by
  unfold resolveOrCreate
  cases credential.filter Credential.isGiven with
  | none => exact leads_refuse _ _ _
  | some password =>
      cases hn : given name with
      | none => exact leads_refuse _ _ _
      | some n =>
          refine (steady_exists? store n).bind fun found => ?_
          cases found with
          | true => exact Leads.bind (steady_log _ _ _) fun _ => leads_ofExcept _
          | false =>
              exact Leads.bind (steady_log _ _ _) fun _ =>
                (hcreate n password hn).bind fun _ => leads_ofExcept _

end

section
variable [Steady R]

theorem steady_create (store : IdentityStore) {name : String} (credential : Credential)
    (hallows : Allows R (.createAccount name)) : Leads R (store.create name credential) := by
  cases store with
  | table =>
      exact leads_create_table credential hallows fun h accounts =>
        Steady.of_proceeds (.of_journal_eq rfl rfl)
  | netUser executable limit =>
      exact Leads.bind hallows fun _ => steady_createWithProgram executable limit name credential
  | posix => exact Leads.bind hallows fun _ => leads_refuse _ _ _

theorem steady_resolveOrCreate (store : IdentityStore) (name : Option String)
    (credential : Option Credential) (hallows : ∀ n, given name = some n → Allows R (.createAccount n)) :
    Leads R (store.resolveOrCreate name credential) :=
  leads_resolveOrCreate store name credential fun n password hn =>
    steady_create store password (hallows n hn)

end

end IdentityStore

/-! ## Privileges -/

namespace Lsa

variable [Serving R]

theorem steady_check (status : Int) (call : String) (name : Option String) :
    Leads R (check status call name) := by
  unfold check
  split
  · exact leads_pure _
  · exact (steady_callLsa rfl fun _ _ => rfl).bind fun _ => leads_refuse _ _ _

theorem steady_lookupAccount (name : String) : Leads R (lookupAccount name) := by
  refine (steady_callLsa rfl fun _ _ => rfl).bind fun error => ?_
  split
  · exact leads_refuse _ _ _
  · split
    · exact leads_throw _
    · refine (steady_callLsa rfl fun _ _ => rfl).bind fun failed => ?_
      cases failed with
      | none => exact leads_pure _
      | some error => exact leads_throw _

theorem steady_openPolicy (access : Nat) : Leads R (openPolicy access) :=
  (steady_callLsa rfl fun _ _ => rfl).bind fun _ => (steady_check _ _ _).bind fun _ => leads_pure _

theorem steady_closePolicy (handle : Nat) : Leads R (closePolicy handle) :=
  steady_callLsa rfl fun _ _ => rfl

/-- The handle is closed on the host on which the work ended, so one growth follows the other. -/
theorem steady_withPolicy {α : Type} (access : Nat) {work : Nat → Run α}
    (hwork : ∀ handle, Leads R (work handle)) :
    Leads R (withPolicy access work) :=
  (steady_openPolicy access).bind fun handle =>
    Leads.either (hwork handle) (fun _ => (steady_closePolicy handle).bind fun _ => leads_pure _)
      fun _ => (steady_closePolicy handle).bind fun _ => leads_throw _

theorem steady_accountRights (name : String) : Leads R (accountRights name) := by
  refine (steady_lookupAccount name).bind fun _ => steady_withPolicy _ fun handle => ?_
  refine (steady_callLsa rfl fun _ _ => rfl).bind fun listed => ?_
  split
  · exact leads_pure _
  · exact (steady_check _ _ _).bind fun _ => (steady_callLsa rfl fun _ _ => rfl).bind fun _ => leads_pure _

theorem steady_addAccountRights (hprivileges : AllowsPrivileges R) (name : String)
    (privileges : PrivilegeSet) : Leads R (addAccountRights name privileges) := by
  unfold addAccountRights
  split
  · exact leads_pure _
  · refine (steady_lookupAccount name).bind fun _ => Leads.bind ?_ fun _ => steady_log _ _ _
    exact steady_withPolicy _ fun handle =>
      (leads_addRights hprivileges _ _ _).bind fun _ => steady_check _ _ _

end Lsa

namespace SecurityPolicy

variable [Serving R]

theorem steady_accountRights (policy : SecurityPolicy) (name : String) :
    Leads R (policy.accountRights name) := by
  cases policy with
  | table => exact leads_get.bind fun _ => leads_pure _
  | lsa => exact Lsa.steady_accountRights name

/-- Adding privileges leads along a relation to which privileges are all the same. -/
theorem steady_addAccountRights (hprivileges : AllowsPrivileges R) (policy : SecurityPolicy)
    {name : String} {privileges : PrivilegeSet}
    (hallows : Allows R (.addPrivileges name privileges)) :
    Leads R (policy.addAccountRights name privileges) := by
  refine Leads.bind hallows fun _ => ?_
  cases policy with
  | table =>
      exact leads_get.bind fun _ => (leads_ofExcept _).bind fun _ h => hprivileges.1 h _
  | lsa => exact Lsa.steady_addAccountRights hprivileges name privileges

/-- Only privileges among those to be granted are added, and to nobody but the identity. -/
theorem steady_grant (policy : SecurityPolicy) (store : IdentityStore) (identity : Identity)
    (privileges : PrivilegeSet)
    (hadd : ∀ ps : PrivilegeSet, (∀ p ∈ ps, p ∈ privileges) →
      Leads R (policy.addAccountRights identity.name ps)) :
    Leads R (policy.grant store identity privileges) := by
  refine (IdentityStore.steady_requireExisting store identity).bind fun _ => Leads.mapFault ?_ _
  refine (steady_accountRights policy identity.name).bind fun held => ?_
  dsimp only
  split
  · exact Leads.bind (steady_log _ _ _) fun _ => leads_pure _
  · have hmissing : ∀ p ∈ privileges \ held, p ∈ privileges := fun p hp =>
      (PrivilegeSet.mem_sdiff.1 hp).1
    exact Leads.bind (steady_log _ _ _) fun _ => (hadd _ hmissing).bind fun _ => leads_pure _

end SecurityPolicy

/-! ## Directories -/

namespace AccessControl

section
variable [Serving R]

theorem steady_runEditor (executable : String) (limit : Number) (args : List String)
    (path : String) :
    Leads R (runEditor executable limit args path) := by
  refine ((steady_command _ _ _).mapFault _).bind fun out => ?_
  split
  · exact leads_pure _
  · exact leads_refuse _ _ _

theorem steady_entries (access : AccessControl) (path : String) :
    Leads R (access.entries path) := by
  cases access with
  | table => exact leads_get.bind fun _ => leads_pure _
  | icacls executable limit => exact (steady_runEditor _ _ _ _).bind fun _ => leads_pure _

/-- In the table an entry is an edit of the access lists alone. -/
theorem leads_setEntry_table {path name : String} {rights : AccessRights}
    (hallows : Allows R (.setEntry path name rights))
    (haccess : ∀ (h : Host) (access : AccessTable), R h { h with access }) :
    Leads R (setEntry .table path name rights) :=
  Leads.bind hallows fun _ => leads_get.bind fun _ => (leads_ofExcept _).bind fun _ h =>
    haccess h _

/-- A grant leads wherever setting its entry does. -/
theorem leads_grant (access : AccessControl) (store : IdentityStore) (identity : Identity)
    {path : String} {rights : AccessRights}
    (hset : Leads R (access.setEntry path identity.name rights)) :
    Leads R (access.grant store identity path rights) := by
  refine (IdentityStore.steady_requireExisting store identity).bind fun _ =>
    (leads_pathExists _).bind fun found => ?_
  split
  · exact leads_refuse _ _ _
  · refine (steady_entries access path).bind fun entries => ?_
    split
    · exact Leads.bind (steady_log _ _ _) fun _ => leads_pure _
    · exact Leads.bind (steady_log _ _ _) fun _ => hset.bind fun _ => leads_pure _

theorem leads_attemptAll (access : AccessControl) (store : IdentityStore) (identity : Identity)
    (rights : AccessRights) :
    ∀ paths : List String,
      (∀ path ∈ paths, Leads R (access.setEntry path identity.name rights)) →
      Leads R (access.attemptAll store identity rights paths)
  | [], _ => leads_pure _
  | path :: rest, hset => by
      have ih := leads_attemptAll access store identity rights rest
        fun p hp => hset p (List.mem_cons_of_mem _ hp)
      refine (leads_grant access store identity (hset path List.mem_cons_self)).catchRefusal.bind
        fun outcome => ?_
      cases outcome with
      | ok g => exact ih.bind fun _ => leads_pure _
      | error r => exact Leads.bind (steady_log _ _ _) fun _ => ih.bind fun _ => leads_pure _

/-- Every entry set has the given rights and stands on a path of the list. -/
theorem leads_grantAll (access : AccessControl) (store : IdentityStore) (identity : Identity)
    (paths : List String) (rights : AccessRights)
    (hset : ∀ path ∈ paths, Leads R (access.setEntry path identity.name rights)) :
    Leads R (access.grantAll store identity paths rights) := by
  refine (IdentityStore.steady_requireExisting store identity).bind fun _ =>
    (leads_attemptAll access store identity rights paths hset).bind fun results => ?_
  split
  · exact leads_pure _
  · exact leads_throw _

end

theorem steady_setEntry [Steady R] (access : AccessControl) {path name : String}
    {rights : AccessRights} (hallows : Allows R (.setEntry path name rights)) :
    Leads R (access.setEntry path name rights) := by
  cases access with
  | table =>
      exact leads_setEntry_table hallows fun h access =>
        Steady.of_proceeds (.of_journal_eq rfl rfl)
  | icacls executable limit =>
      exact Leads.bind hallows fun _ => (steady_runEditor _ _ _ _).bind fun _ => leads_pure _

end AccessControl

/-! ## Isolation groups -/

namespace CgroupFilesystem

variable [Serving R]

theorem steady_requireUser (owner : String) : Leads R (requireUser owner) := by
  refine (leads_uidOf? owner).bind fun uid => ?_
  cases uid with
  | none => exact leads_throw _
  | some uid => exact leads_pure _

theorem steady_tableEnsureDirectory (path : Path) :
    Leads R (tableEnsureDirectory path) := by
  refine leads_get.bind fun h => ?_
  dsimp only
  split
  · exact leads_throw _
  · refine Leads.bind (serving_modify fun _ => .of_journal_eq rfl rfl) fun _ => ?_
    split
    · exact leads_throw _
    · exact Leads.bind (serving_modify fun _ => .of_journal_eq rfl rfl) fun _ => leads_pure _

theorem steady_tableChangeOwner (path : Path) (owner : String) :
    Leads R (tableChangeOwner path owner) := by
  refine leads_get.bind fun h => Leads.bind (serving_modify fun _ => .of_journal_eq rfl rfl) fun _ => ?_
  split
  · exact leads_throw _
  · exact serving_modify fun _ => .of_journal_eq rfl rfl

theorem steady_directEnsureDirectory (path : Path) :
    Leads R (directEnsureDirectory path) := by
  refine (leads_isDirectory path).bind fun found => Leads.ite (leads_pure _) fun h => ?_
  have hmade := steady_mkdir (R := R) path h
  unfold hostAfter at hmade ⊢
  dsimp only
  cases hmk : Run.mkdir path h with
  | ok u h' =>
      rw [hmk] at hmade
      exact hmade
  | error e h' =>
      rw [hmk] at hmade
      cases e with
      | system e =>
          dsimp only at hmade ⊢
          split_ifs <;> exact hmade
      | _ => exact hmade

theorem steady_chownEach (start : Path) (uid : Int) :
    ∀ ps : List Path, Leads R (chownEach start uid ps)
  | [] => leads_pure _
  | p :: ps => (steady_chown start p uid).bind fun _ => steady_chownEach start uid ps

theorem steady_directChangeOwner (path : Path) (owner : String) :
    Leads R (directChangeOwner path owner) := by
  refine (steady_requireUser owner).bind fun uid => Leads.mapFault ?_ _
  exact (steady_chown path path uid).bind fun _ =>
    leads_get.bind fun h => steady_chownEach path uid (h.tree.walk path)

theorem steady_validateElevation (executable : String) :
    Leads R (validateElevation executable) := by
  refine leads_get.bind fun h => ?_
  split
  · exact leads_pure _
  · refine ((steady_startProgram _ _).mapFault _).bind fun out => ?_
    split
    · exact serving_modify fun _ => .of_journal_eq rfl rfl
    · exact leads_refuse _ _ _

theorem steady_runElevated (executable : String) (limit : Number) (call : String)
    (args : List String) (path : Path) :
    Leads R (runElevated executable limit call args path) := by
  refine (steady_validateElevation executable).bind fun _ =>
    ((steady_command _ _ _).mapFault _).bind fun out => ?_
  split
  · exact leads_pure _
  · exact leads_refuse _ _ _

theorem steady_sudoEnsureDirectory (executable : String) (limit : Number) (path : Path) :
    Leads R (sudoEnsureDirectory executable limit path) := by
  refine (leads_isDirectory path).bind fun found => ?_
  split
  · exact leads_pure _
  · refine (leads_isDirectory path.parent).bind fun mounted => ?_
    split
    · exact (steady_runElevated _ _ _ _ _).bind fun _ => leads_pure _
    · exact leads_throw _

theorem steady_sudoChangeOwner (executable : String) (limit : Number) (path : Path)
    (owner : String) : Leads R (sudoChangeOwner executable limit path owner) :=
  (steady_requireUser owner).bind fun _ => steady_runElevated _ _ _ _ _

theorem steady_ensureDirectory (fs : CgroupFilesystem) {path : Path}
    (hallows : Allows R (.ensureDirectory path)) :
    Leads R (fs.ensureDirectory path) := by
  refine Leads.bind hallows fun _ => ?_
  cases fs with
  | table => exact steady_tableEnsureDirectory path
  | direct => exact steady_directEnsureDirectory path
  | viaSudo executable limit => exact steady_sudoEnsureDirectory executable limit path

theorem steady_changeOwner (fs : CgroupFilesystem) {path : Path} {owner : String}
    (hallows : Allows R (.changeOwner path owner)) : Leads R (fs.changeOwner path owner) := by
  refine Leads.bind hallows fun _ => ?_
  cases fs with
  | table => exact steady_tableChangeOwner path owner
  | direct => exact steady_directChangeOwner path owner
  | viaSudo executable limit => exact steady_sudoChangeOwner executable limit path owner

theorem steady_treeOwnerOf (path : Path) : Leads R (treeOwnerOf path) := by
  refine (leads_entryAt path).bind fun n => ?_
  cases n with
  | none => exact leads_pure _
  | some n => exact (leads_userOf? n.uid).bind fun _ => leads_pure _

theorem steady_ownerOf (fs : CgroupFilesystem) (path : Path) :
    Leads R (fs.ownerOf path) := by
  cases fs with
  | table => exact leads_get.bind fun _ => leads_pure _
  | direct => exact steady_treeOwnerOf path
  | viaSudo executable limit => exact steady_treeOwnerOf path

end CgroupFilesystem

namespace CgroupProvisioner

variable [Serving R]

theorem steady_provisionOne (p : CgroupProvisioner) {owner : String} {path : Path}
    (hmade : Allows R (.ensureDirectory path)) (hgiven : Allows R (.changeOwner path owner)) :
    Leads R (p.provisionOne owner path) := by
  have hrest : Leads R (do
      p.filesystem.changeOwner path owner
      Run.log .debug .cgroups ("Owner of " ++ path.toString ++ " set to '" ++ owner ++ "'")) :=
    (CgroupFilesystem.steady_changeOwner p.filesystem hgiven).bind fun _ => steady_log _ _ _
  refine (CgroupFilesystem.steady_ensureDirectory p.filesystem hmade).bind fun isNew => ?_
  dsimp only
  split <;> exact Leads.bind (steady_log _ _ _) fun _ => hrest

theorem steady_provisionEach (p : CgroupProvisioner) (owner : String) :
    ∀ paths : List Path, (∀ path ∈ paths, Allows R (.ensureDirectory path)) →
      (∀ path ∈ paths, Allows R (.changeOwner path owner)) →
      Leads R (p.provisionEach owner paths)
  | [], _, _ => leads_pure _
  | path :: rest, hmade, hgiven =>
      (steady_provisionOne p (hmade path List.mem_cons_self) (hgiven path List.mem_cons_self)).bind
        fun _ => steady_provisionEach p owner rest
          (fun q hq => hmade q (List.mem_cons_of_mem _ hq))
          fun q hq => hgiven q (List.mem_cons_of_mem _ hq)

theorem steady_ownerIsKnown (p : CgroupProvisioner) (owner : String) :
    Leads R (p.ownerIsKnown owner) := by
  unfold ownerIsKnown
  split
  · exact leads_pure _
  · cases p.identities with
    | none => exact leads_pure _
    | some store => exact IdentityStore.steady_exists? store owner

/-- Only the directories of the group are made, and they are given to the owner. -/
theorem steady_provision (p : CgroupProvisioner) (group owner : String)
    (hallows : ∀ specs, CgroupSpec.forGroup group = .ok specs → ∀ s ∈ specs,
      Allows R (.ensureDirectory (s.path p.root)) ∧ Allows R (.changeOwner (s.path p.root) owner)) :
    Leads R (p.provision group owner) := by
  refine (steady_ownerIsKnown p owner).bind fun known => ?_
  dsimp only
  split
  · exact leads_throw _
  · cases hspecs : CgroupSpec.forGroup group with
    | error e => exact leads_throw _
    | ok specs =>
        have hpath : ∀ path ∈ specs.map fun s => s.path p.root,
            Allows R (.ensureDirectory path) ∧ Allows R (.changeOwner path owner) := by
          intro path hmem
          obtain ⟨s, hs, rfl⟩ := List.mem_map.1 hmem
          exact hallows specs hspecs s hs
        exact (steady_provisionEach p owner _ (fun path hmem => (hpath path hmem).1)
          fun path hmem => (hpath path hmem).2).bind fun _ => leads_pure _

theorem steady_notOwned (p : CgroupProvisioner) (owner : String) :
    ∀ specs : List CgroupSpec, Leads R (p.notOwned owner specs)
  | [] => leads_pure _
  | s :: rest =>
      (CgroupFilesystem.steady_ownerOf p.filesystem (s.path p.root)).bind fun _ =>
        (steady_notOwned p owner rest).bind fun _ => leads_pure _

theorem steady_verify (p : CgroupProvisioner) (group owner : String) :
    Leads R (p.verify group owner) :=
  (leads_ofExcept _).bind fun specs => steady_notOwned p owner specs

end CgroupProvisioner

/-! ## The platforms -/

namespace Capability

section
variable [Serving R]

theorem steady_validate (c : Capability) (request : Request) : Leads R (c.validate request) := by
  cases c with
  | windows identities policy access =>
      unfold validate
      dsimp only
      cases given request.runner with
      | none => exact leads_pure _
      | some runner =>
          exact Leads.ite (leads_pure _)
            ((IdentityStore.steady_resolve identities _).bind fun _ => leads_pure _)
  | linux identities filesystem config =>
      have hresolve : Leads R (do
          let _ ← identities.resolve request.cgroupOwner
          return ()) := (IdentityStore.steady_resolve identities _).bind fun _ => leads_pure _
      exact Leads.ite (Leads.bind (leads_refuse _ _ _) fun _ => hresolve) hresolve

theorem steady_describe (c : Capability) (request : Request) : Leads R (c.describe request) := by
  cases c with
  | windows identities policy access => exact leads_pure _
  | linux identities filesystem config =>
      have hrest : ∀ owner : String, Leads R (do
          let specs ← Run.ofExcept (CgroupSpec.forGroup (groupOf config request))
          return specs.map fun s => groupLine owner (s.path config.cgroupRoot)) :=
        fun owner => (leads_ofExcept _).bind fun _ => leads_pure _
      unfold describe
      dsimp only
      cases given request.cgroupOwner with
      | some owner => exact hrest owner
      | none =>
          exact (IdentityStore.steady_resolve identities none).bind fun session =>
            hrest session.name

theorem steady_runnerOf (identities : IdentityStore) (request : Request)
    (target : Option Identity) : Leads R (runnerOf identities request target) := by
  unfold runnerOf
  split
  · exact Leads.ite (leads_pure _) (IdentityStore.steady_resolve identities _)
  · exact IdentityStore.steady_resolve identities _

theorem steady_provisionRunner (identities : IdentityStore) (policy : SecurityPolicy)
    (request : Request) (target : Option Identity)
    (hadd : ∀ name (ps : PrivilegeSet), (∀ p ∈ ps, p ∈ request.privileges) →
      Leads R (policy.addAccountRights name ps)) :
    Step.Leads R (provisionRunner identities policy request target) :=
  (Step.leads_ofRun (steady_runnerOf identities request target)).bind fun runner =>
    (Step.leads_report _).bind fun _ =>
      (Step.leads_ofRun (SecurityPolicy.steady_grant policy identities runner _ (hadd _))).bind
        fun _ => Step.leads_report _

/-- Granting the directories leads wherever setting their entries does. -/
theorem leads_provisionDirectories (identities : IdentityStore) (access : AccessControl)
    (request : Request) (target : Option Identity)
    (hset : ∀ path ∈ request.directories, ∀ name,
      Leads R (access.setEntry path name request.rights)) :
    Step.Leads R (provisionDirectories identities access request target) := by
  cases target with
  | none => exact Step.leads_throw _
  | some target =>
      exact (Step.leads_ofRun (steady_log _ _ _)).bind fun _ =>
        (Step.leads_ofRun (AccessControl.leads_grantAll access identities target _ _
          fun path hpath => hset path hpath target.name)).bind fun _ => Step.leads_report _

/-- Only the directories of the request's group are made and given away. -/
theorem steady_provisionGroup (identities : IdentityStore) (filesystem : CgroupFilesystem)
    (config : Config) (request : Request)
    (hallows : ∀ specs, CgroupSpec.forGroup (groupOf config request) = .ok specs → ∀ s ∈ specs,
      Allows R (.ensureDirectory (s.path config.cgroupRoot)) ∧
        ∀ owner, Allows R (.changeOwner (s.path config.cgroupRoot) owner)) :
    Step.Leads R (provisionGroup identities filesystem config request) := by
  refine (Step.leads_ofRun (IdentityStore.steady_resolve identities _)).bind fun owner =>
    (Step.leads_report _).bind fun _ => (Step.leads_ofRun (steady_log _ _ _)).bind fun _ =>
      (Step.leads_ofRun (CgroupProvisioner.steady_provision _ _ _ fun specs hspecs s hs =>
        ⟨(hallows specs hspecs s hs).1, (hallows specs hspecs s hs).2 owner.name⟩)).bind
          fun paths => (Step.leads_report _).bind fun _ => Step.Leads.ite ?_ (Step.leads_pure _)
  exact (Step.leads_ofRun (CgroupProvisioner.steady_verify _ _ _)).bind fun wrong =>
    Step.Leads.ite (Step.leads_pure _) (Step.leads_throw _)

end

section
variable [Steady R]

theorem steady_provisionDirectories (identities : IdentityStore) (access : AccessControl)
    (request : Request) (target : Option Identity)
    (hallows : ∀ path ∈ request.directories, ∀ name,
      Allows R (.setEntry path name request.rights)) :
    Step.Leads R (provisionDirectories identities access request target) :=
  leads_provisionDirectories identities access request target fun path hpath name =>
    AccessControl.steady_setEntry access (hallows path hpath name)

/-- Where any change is allowed, and privileges are all the same, provisioning leads along. -/
theorem steady_provision (hallows : ∀ c, Allows R c) (hprivileges : AllowsPrivileges R)
    (c : Capability) (request : Request) (target : Option Identity) :
    Step.Leads R (c.provision request target) := by
  cases c with
  | linux identities filesystem config =>
      exact steady_provisionGroup identities filesystem config request
        fun _ _ _ _ => ⟨hallows _, fun _ => hallows _⟩
  | windows identities policy access =>
      have hdirectories : Step.Leads R
          (if !request.directories.isEmpty then
            provisionDirectories identities access request target
          else pure ()) :=
        Step.Leads.ite (steady_provisionDirectories identities access request target
          fun _ _ _ => hallows _) (Step.leads_pure _)
      exact Step.Leads.ite ((steady_provisionRunner identities policy request target
        fun _ _ _ => SecurityPolicy.steady_addAccountRights hprivileges policy (hallows _)).bind
          fun _ => hdirectories) hdirectories

end

end Capability

/-! ## Runs -/

namespace Orchestrator

section
variable [Serving R]

theorem steady_missingDirectories : ∀ paths : List String, Leads R (missingDirectories paths)
  | [] => leads_pure _
  | _ :: rest =>
      (leads_pathExists _).bind fun _ => (steady_missingDirectories rest).bind fun _ => leads_pure _

theorem steady_validate (o : Orchestrator) (request : Request) : Leads R (o.validate request) := by
  have hcapability := o.capability.steady_validate (R := R) request
  unfold validate
  refine (leads_ofExcept _).bind fun _ => (steady_missingDirectories _).bind fun missing => ?_
  cases given request.user with
  | none => exact Leads.ite (Leads.bind (leads_refuse _ _ _) fun _ => hcapability) hcapability
  | some user =>
      have huser := (IdentityStore.steady_resolve o.capability.identities (some user)).bind
        fun _ => hcapability
      exact Leads.ite (Leads.bind (leads_refuse _ _ _) fun _ => huser) huser

/-- A confirmation leads wherever the one who is asked does, and the question. -/
theorem steady_confirm {o : Orchestrator}
    (hask : ∀ ask, o.confirmation = some ask → ∀ q, Leads R (ask q))
    (hasked : ∀ q answer, Leads R (note (.asked q answer))) (request : Request) :
    Leads R (o.confirm request) := by
  unfold confirm
  refine Leads.ite (leads_pure _) ?_
  cases hconfirmation : o.confirmation with
  | none => exact leads_pure _
  | some ask =>
      refine (o.capability.steady_describe request).bind fun plan => Leads.ite (leads_pure _) ?_
      exact (hask ask hconfirmation _).bind fun answer => Leads.bind (hasked _ _) fun _ =>
        Leads.ite (leads_pure _) (leads_throw _)

/-- Resolving the target leads wherever creating its account does. -/
theorem leads_resolveTarget (o : Orchestrator) (request : Request)
    (hcreate : ∀ name password, given request.createUser = some name →
      Leads R (o.capability.identities.create name password)) :
    Step.Leads R (o.resolveTarget request) := by
  unfold resolveTarget
  refine Step.Leads.ite ?_ (Step.Leads.ite ?_ (Step.Leads.ite ?_ (Step.leads_pure _)))
  · exact (Step.leads_ofRun (IdentityStore.leads_resolveOrCreate _ _ _ hcreate)).bind fun _ =>
      (Step.leads_report _).bind fun _ => Step.leads_pure _
  · exact (Step.leads_ofRun (IdentityStore.steady_resolve _ _)).bind fun _ =>
      (Step.leads_report _).bind fun _ => Step.leads_pure _
  · exact (Step.leads_ofRun (IdentityStore.steady_resolve _ _)).bind fun _ =>
      (Step.leads_report _).bind fun _ => Step.leads_pure _

end

section
variable [Steady R]

theorem steady_resolveTarget (o : Orchestrator) (request : Request)
    (hallows : ∀ name, given request.createUser = some name → Allows R (.createAccount name)) :
    Step.Leads R (o.resolveTarget request) :=
  leads_resolveTarget o request fun name password hname =>
    IdentityStore.steady_create _ password (hallows name hname)

theorem steady_apply (o : Orchestrator) (request : Request)
    (hallows : ∀ name, given request.createUser = some name → Allows R (.createAccount name))
    (hprovision : ∀ target, Step.Leads R (o.capability.provision request target)) :
    Step.Leads R (o.apply request) :=
  (steady_resolveTarget o request hallows).bind fun target =>
    (hprovision target).bind fun _ => Step.leads_ofRun (steady_log _ _ _)

end

end Orchestrator

/-! ## What they write into the report -/

section Reports
variable {τ : Type} {view : Report → τ}

/-- A grant of directories writes the directories. -/
theorem Capability.leaves_directories (identities : IdentityStore) (access : AccessControl)
    (request : Request) (target : Option Identity)
    (hview : ∀ (r : Report) directoriesGranted, view { r with directoriesGranted } = view r) :
    Step.Leaves view
      (if !request.directories.isEmpty then
        provisionDirectories identities access request target
      else pure ()) := by
  refine Step.Leaves.ite ?_ (Step.leaves_pure _)
  cases target with
  | none => exact Step.leaves_throw _
  | some t =>
      exact (Step.leaves_ofRun _).bind fun _ => (Step.leaves_ofRun _).bind fun _ =>
        Step.leaves_report fun r => hview r _

/-- Resolving the target writes the target, and whether it was created. -/
theorem Orchestrator.leaves_resolveTarget (o : Orchestrator) (request : Request)
    (hview : ∀ (r : Report) created target, view { r with created, target } = view r) :
    Step.Leaves view (o.resolveTarget request) := by
  unfold resolveTarget
  refine Step.Leaves.ite ?_ (Step.Leaves.ite ?_ (Step.Leaves.ite ?_ (Step.leaves_pure _))) <;>
    exact (Step.leaves_ofRun _).bind fun _ =>
      (Step.leaves_report fun r => hview r _ _).bind fun _ => Step.leaves_pure _

end Reports

end Provisioning
