/-
# `Provisioning.Proofs.Privilege.Service` — the security service, as a table

A service that finds the accounts it is asked for, refuses no call and keeps
what it is given (`LsaService.KeepsRights`) is to a grantor what the table kept
in memory is.  The service has more to say: rights that are no privileges of
this library, texts counted in bytes, a status of its own for an account
without rights.

    service                          table
    "bob"   SeBackupPrivilege        bob
            SeTcbPrivilege                 SeTcbPrivilege
            SeTcbPrivilege, again

The table shows the privileges among the rights of each account
(`LsaAccounts.supported`), and every other right stays where it was.

**Stated here.**  Any calls of a grantor end alike on both, each in the same set
or the same failure; after each of them the table shows the service, which has
lost none of the rights it had at first (`service_mirrors_table`).
-/
import Provisioning.Proofs.Host.Alike
import Provisioning.Proofs.Privilege.History

namespace Provisioning

open Run

/-! ## A service that keeps rights -/

namespace LsaAccounts

/-- The rights of an account, whatever the case of its name. -/
def rightsOf (accounts : LsaAccounts) (name : String) : List String :=
  (accounts.get? (Text.lower name)).getD []

/-- The table of the privileges among the rights of each account. -/
def supported (accounts : LsaAccounts) : RightsTable where
  rights := ⟨accounts.rows.map fun r =>
    (r.1, PrivilegeSet.ofTest fun p => r.2.contains p.constant)⟩

end LsaAccounts

/-- The service finds the accounts that are used and fails at nothing; it adds rights to those of an
account, whose name it takes in any case, and lists them. -/
structure LsaService.KeepsRights (service : LsaService) (used : String → Prop) : Prop where
  sizes : ∀ turn accounts name, used name →
    service.sizeError turn accounts name = Lsa.insufficientBuffer
  finds : ∀ turn accounts name, used name → service.sidError turn accounts name = none
  opens : ∀ turn access, service.openStatus turn access = Lsa.success
  /-- The rights are listed, or there are none and the status says so. -/
  lists : ∀ turn accounts name, used name →
    (service.listRights turn accounts name).1 = Lsa.success ∧
        (∀ text, text ∈ (service.listRights turn accounts name).2.map CountedText.text ↔
          text ∈ accounts.rightsOf name) ∨
      (service.listRights turn accounts name).1 = Lsa.nameNotFound ∧ accounts.rightsOf name = []
  adds : ∀ turn accounts name texts, used name →
    (service.addRights turn accounts name texts).1 = Lsa.success ∧
      ∀ other text, text ∈ (service.addRights turn accounts name texts).2.rightsOf other ↔
        text ∈ accounts.rightsOf other ∨
          Text.lower other = Text.lower name ∧ text ∈ texts.map CountedText.text

/-! ## What the answers depend on -/

/-- What the account databases answer from. -/
def Host.databases (h : Host) :
    AccountTable × List (String × Int) × Programs × Tree × List Invocation :=
  (h.accounts, h.passwd, h.programs, h.tree, h.journal.invocations)

/-- What is seen of a host by its service: every right of every account, in no order. -/
structure Served where
  databases : AccountTable × List (String × Int) × Programs × Tree × List Invocation
  lsa : LsaService
  held : String → String → Prop

def Host.served (h : Host) : Served where
  databases := h.databases
  lsa := h.lsa
  held name text := text ∈ h.lsaAccounts.rightsOf name

/-- The same, after rights were added to an account. -/
def Served.withRights (S : Served) (name : String) (texts : List String) : Served :=
  { S with held := fun other text =>
      S.held other text ∨ Text.lower other = Text.lower name ∧ text ∈ texts }

theorem Host.databases_noted {h : Host} {e : Event} (he : Journal.invocations [e] = []) :
    (h.noted e).databases = h.databases := by
  simp [Host.noted, databases, he]

theorem Host.served_noted {h : Host} {e : Event} (he : Journal.invocations [e] = []) :
    (h.noted e).served = h.served := by
  unfold served
  rw [databases_noted he]
  rfl

namespace IdentityStore

/-- Hosts with the same databases answer alike whether an identity exists. -/
theorem alike_requireExisting_databases (store : IdentityStore) (i : Identity) :
    Alike Eq (SameBy Host.databases) (store.requireExisting i) (store.requireExisting i) := by
  have hexists : Alike Eq (SameBy Host.databases) (store.exists? i.name) (store.exists? i.name) := by
    intro x x' hsame
    have hsame' := hsame
    simp only [SameBy, Host.databases, Prod.mk.injEq] at hsame'
    obtain ⟨haccounts, hpasswd, hprograms, htree, hinvocations⟩ := hsame'
    cases store with
    | table => exact .ok (congrArg (·.has i.name) haccounts.symm) hsame
    | posix => exact .ok (congrArg (fun users => (users.lookup i.name).isSome) hpasswd.symm) hsame
    | netUser executable limit =>
        refine EndsAlike.bind (Q := Eq) ?_ fun out out' hout => alike_pure (by rw [hout])
        cases hended : x.programs x.journal.invocations ⟨[executable, "user", i.name], some limit⟩
            x.tree with
        | mk outcome t =>
            have hended' := hended
            rw [← hprograms, ← hinvocations, ← htree] at hended'
            cases outcome with
            | ok out =>
                rw [command_of_ok [] hended, command_of_ok [] hended']
                refine .ok rfl ?_
                simp [SameBy, Host.databases, haccounts, hpasswd, hprograms, hinvocations]
            | error e =>
                rw [command_of_error [] hended, command_of_error [] hended']
                refine .error ?_
                simp [SameBy, Host.databases, haccounts, hpasswd, hprograms, hinvocations]
  unfold requireExisting
  refine Alike.ite (alike_throw _) (hexists.bind ?_)
  rintro found _ rfl
  exact Alike.ite (alike_pure rfl) (alike_throw _)

end IdentityStore

/-! ## Calls of the service, one by one -/

namespace Lsa

variable {α β : Type} {S S' : Served} {name : String}

theorem gives_log_served (level : LogLevel) (source : LogSource) (message : String) :
    Gives Host.served (Run.log level source message) S () S :=
  gives_modify fun _ hx => (Host.served_noted rfl).trans hx

/-- What a call comes to, whichever turn it has, if what follows comes to the same. -/
theorem gives_callLsa_bind {call : LsaCall} {answer : Host → Nat → LsaAnswer α} {next : α → Run β}
    {b : β}
    (hnext : ∀ x turn, x.served = S →
      ∃ S₁, ({ x with lsaAccounts := (answer x turn).accounts } : Host).served = S₁ ∧
        Gives Host.served (next (answer x turn).value) S₁ b S') :
    Gives Host.served (Run.callLsa call answer >>= next) S b S' := by
  intro x hx
  obtain ⟨S₁, hseen, hgives⟩ := hnext x x.journal.lsaCalls.length hx
  obtain ⟨y, hended, hy⟩ := hgives
    (Host.noted { x with lsaAccounts := (answer x x.journal.lsaCalls.length).accounts }
      (.called call (answer x x.journal.lsaCalls.length).failure))
    ((Host.served_noted rfl).trans hseen)
  exact ⟨y, hended, hy⟩

section
variable {service : LsaService} {used : String → Prop} (hkeeps : service.KeepsRights used)
  (hused : used name) (hlsa : S.lsa = service)

include hlsa

theorem lsa_eq {x : Host} (hx : x.served = S) : x.lsa = service :=
  (congrArg Served.lsa hx).trans hlsa

include hkeeps

theorem gives_withPolicy (access : Nat) {work : Nat → Run α} {a : α}
    (hwork : ∀ handle, Gives Host.served (work handle) S a S') :
    Gives Host.served (withPolicy access work) S a S' := by
  intro x hx
  have hopens : x.lsa.openStatus x.journal.lsaCalls.length access = success := by
    rw [lsa_eq hlsa hx, hkeeps.opens]
  have hopened : openPolicy access x = .ok x.journal.lsaCalls.length
      (x.noted (.called (.openPolicy access) (failureOf success))) := by
    refine (bind_apply_of_ok rfl _).trans ?_
    dsimp only
    rw [hopens]
    rfl
  have hseen : (x.noted (.called (.openPolicy access) (failureOf success))).served = S :=
    (Host.served_noted rfl).trans hx
  obtain ⟨y, hworked, hy⟩ := hwork x.journal.lsaCalls.length _ hseen
  exact ⟨_, withPolicy_of_ok hopened hworked, (Host.served_noted rfl).trans hy⟩

include hused

theorem gives_lookupAccount : Gives Host.served (lookupAccount name) S () S := by
  refine gives_callLsa_bind fun x turn hx => ⟨S, hx, ?_⟩
  have hsize : x.lsa.sizeError turn x.lsaAccounts name = insufficientBuffer := by
    rw [lsa_eq hlsa hx, hkeeps.sizes _ _ _ hused]
  dsimp only
  rw [hsize]
  refine Gives.ite_neg (by decide) (Gives.ite_neg (fun hne => hne rfl) ?_)
  refine gives_callLsa_bind fun y turn' hy => ⟨S, hy, ?_⟩
  have hfound : y.lsa.sidError turn' y.lsaAccounts name = none := by
    rw [lsa_eq hlsa hy, hkeeps.finds _ _ _ hused]
  dsimp only
  rw [hfound]
  exact gives_pure () S

/-- The privileges among the rights of an account are read. -/
theorem gives_accountRights {held : PrivilegeSet}
    (hheld : ∀ p, p ∈ held ↔ S.held name p.constant) :
    Gives Host.served (accountRights name) S held S := by
  refine (gives_lookupAccount hkeeps hused hlsa).bind (gives_withPolicy hkeeps hlsa _ fun handle => ?_)
  refine gives_callLsa_bind fun x turn hx => ⟨S, hx, ?_⟩
  have hrights (text : String) : S.held name text ↔ text ∈ x.lsaAccounts.rightsOf name := by
    rw [← hx]
    rfl
  dsimp only
  rw [lsa_eq hlsa hx]
  rcases hkeeps.lists turn x.lsaAccounts name hused with ⟨hstatus, hlisted⟩ | ⟨hstatus, hnone⟩
  · rw [hstatus]
    refine Gives.ite_neg (by decide) ?_
    refine Gives.bind (fun _ hy => ⟨_, rfl, hy⟩) (gives_callLsa_bind fun y turn' hy => ⟨S, hy, ?_⟩)
    have hread : held = PrivilegeSet.ofTest fun p =>
        ((service.listRights turn x.lsaAccounts name).2.map CountedText.text).contains
          p.constant := by
      refine PrivilegeSet.ext_mem fun p => ?_
      rw [hheld, hrights, ← hlisted, PrivilegeSet.mem_def, PrivilegeSet.contains_ofTest,
        List.contains_iff_mem]
    rw [hread]
    exact gives_pure _ S
  · rw [hstatus]
    have hread : held = {} := by
      refine PrivilegeSet.ext_mem fun p => ?_
      simp [hheld, hrights, hnone]
    rw [hread]
    exact Gives.ite_pos rfl (gives_pure _ S)

/-- What is added is added to the rights of the account, and to those of no other. -/
theorem gives_addAccountRights (privileges : PrivilegeSet) :
    Gives Host.served (addAccountRights name privileges) S ()
      (S.withRights name privileges.constants) := by
  unfold addAccountRights
  cases hempty : privileges.isEmpty with
  | true =>
      have hnone : privileges.constants = [] :=
        List.map_eq_nil_iff.2 (PrivilegeSet.toList_eq_nil_iff.2 hempty)
      have hsame : S.withRights name privileges.constants = S := by
        simp [Served.withRights, hnone]
      rw [hsame]
      exact gives_pure () S
  | false =>
      rw [if_neg Bool.false_ne_true]
      refine (gives_lookupAccount hkeeps hused hlsa).bind (Gives.bind (a := ())
        (gives_withPolicy hkeeps hlsa _ fun handle => ?_) (gives_log_served _ _ _))
      refine gives_callLsa_bind fun x turn hx =>
        ⟨S.withRights name privileges.constants, ?_, ?_⟩
      · subst hx
        obtain ⟨-, hrights⟩ :=
          hkeeps.adds turn x.lsaAccounts name (handed privileges.constants) hused
        rw [map_text_handed_constants, ← lsa_eq hlsa rfl] at hrights
        exact congrArg (Served.mk x.databases x.lsa)
          (funext fun other => funext fun text => propext (hrights other text))
      · have hstatus :=
          (hkeeps.adds turn x.lsaAccounts name (handed privileges.constants) hused).1
        rw [← lsa_eq hlsa hx] at hstatus
        dsimp only
        rw [hstatus]
        exact gives_pure () _

end

end Lsa

/-! ## The service and the table, side by side -/

theorem LsaAccounts.mem_supported {accounts : LsaAccounts} {name : String} {p : Privilege} :
    p ∈ accounts.supported.heldBy name ↔ p.constant ∈ accounts.rightsOf name := by
  unfold RightsTable.heldBy supported rightsOf Table.get?
  dsimp only
  induction accounts.rows with
  | nil => simp [Table.lookup]
  | cons row rows ih =>
      obtain ⟨key, rights⟩ := row
      by_cases hkey : key = Text.lower name
      · simp [Table.lookup, hkey, PrivilegeSet.mem_def]
      · simpa [Table.lookup, hkey] using ih

/-- The table of `h'` shows the privileges that the service of `h` knows of, and beside them the
service has every right that it had at first, and no other. -/
structure Host.Mirrors (first : LsaAccounts) (h h' : Host) : Prop where
  shown : ∀ name, h.lsaAccounts.supported.heldBy name = h'.rights.heldBy name
  kept : ∀ name text, text ∈ h.lsaAccounts.rightsOf name ↔
    text ∈ first.rightsOf name ∨ ∃ p ∈ h'.rights.heldBy name, p.constant = text

/-- And whatever else an answer may depend on is the same. -/
structure Host.Abreast (service : LsaService) (first : LsaAccounts) (h h' : Host) : Prop
    extends Host.Mirrors first h h' where
  databases : h'.databases = h.databases
  lsa : h.lsa = service
  willing : h'.rights.failure = none

/-- The host, with the table kept in memory that shows what its service knows. -/
def Host.inMemory (h : Host) : Host := { h with rights := h.lsaAccounts.supported }

theorem Host.abreast_inMemory (h : Host) : h.Abreast h.lsa h.lsaAccounts h.inMemory where
  shown _ := rfl
  kept name text := by
    constructor
    · exact .inl
    · rintro (hfirst | ⟨p, hp, rfl⟩)
      · exact hfirst
      · exact LsaAccounts.mem_supported.1 hp
  databases := rfl
  lsa := rfl
  willing := rfl

namespace Host.Abreast

variable {service : LsaService} {first : LsaAccounts} {x x' y y' : Host}

/-- Steps that leave the rights alone, on both sides. -/
theorem of_held (habreast : x.Abreast service first x') (hdatabases : y'.databases = y.databases)
    (hlsa : y.lsa = x.lsa)
    (hheld : ∀ name text, text ∈ y.lsaAccounts.rightsOf name ↔ text ∈ x.lsaAccounts.rightsOf name)
    (hrights : y'.rights = x'.rights) : y.Abreast service first y' where
  shown name := by
    rw [hrights, ← habreast.shown]
    exact PrivilegeSet.ext_mem fun p => by simp only [LsaAccounts.mem_supported, hheld]
  kept name text := by rw [hheld, hrights, habreast.kept]
  databases := hdatabases
  lsa := hlsa.trans habreast.lsa
  willing := by rw [hrights, habreast.willing]

theorem of_served (habreast : x.Abreast service first x') (hserved : y.served = x.served) :
    y.Abreast service first x' :=
  habreast.of_held (habreast.databases.trans (congrArg Served.databases hserved).symm)
    (congrArg Served.lsa hserved)
    (fun name text => iff_of_eq (congrArg (fun S => Served.held S name text) hserved)) rfl

theorem held_iff (habreast : x.Abreast service first x') (name : String) (p : Privilege) :
    p ∈ x'.rights.heldBy name ↔ x.served.held name p.constant := by
  rw [← habreast.shown name]
  exact LsaAccounts.mem_supported

/-- Privileges that are added on both sides are shown on both. -/
theorem of_added (habreast : x.Abreast service first x') {name : String} {ps : PrivilegeSet}
    (hserved : y.served = x.served.withRights name ps.constants)
    (hdatabases : y'.databases = x'.databases) (hadd : x'.rights.add name ps = .ok y'.rights) :
    y.Abreast service first y' := by
  have hheld (other text : String) : text ∈ y.lsaAccounts.rightsOf other ↔
      text ∈ x.lsaAccounts.rightsOf other ∨
        Text.lower other = Text.lower name ∧ text ∈ ps.constants :=
    iff_of_eq (congrArg (fun S => Served.held S other text) hserved)
  have htable (other : String) (p : Privilege) : p ∈ y'.rights.heldBy other ↔
      p ∈ x'.rights.heldBy other ∨ Text.lower other = Text.lower name ∧ p ∈ ps := by
    rw [RightsTable.heldBy_add hadd]
    by_cases hsame : Text.lower other = Text.lower name <;> simp [hsame]
  refine ⟨⟨fun other => ?_, fun other text => ?_⟩, ?_, ?_, ?_⟩
  · refine PrivilegeSet.ext_mem fun p => ?_
    rw [LsaAccounts.mem_supported, hheld, htable, ← habreast.shown, LsaAccounts.mem_supported,
      PrivilegeSet.constant_mem_constants]
  · rw [hheld, habreast.kept]
    simp only [htable, PrivilegeSet.constants, List.mem_map, PrivilegeSet.mem_toList]
    constructor
    · rintro ((hfirst | ⟨p, hp, rfl⟩) | ⟨hsame, p, hp, rfl⟩)
      · exact .inl hfirst
      · exact .inr ⟨p, .inl hp, rfl⟩
      · exact .inr ⟨p, .inr ⟨hsame, hp⟩, rfl⟩
    · rintro (hfirst | ⟨p, hp | ⟨hsame, hp⟩, rfl⟩)
      · exact .inl (.inl hfirst)
      · exact .inl (.inr ⟨p, hp, rfl⟩)
      · exact .inr ⟨hsame, p, hp, rfl⟩
  · rw [hdatabases, habreast.databases]
    exact (congrArg Served.databases hserved).symm
  · exact (congrArg Served.lsa hserved).trans habreast.lsa
  · exact (RightsTable.failure_of_add hadd).2

end Host.Abreast

/-- What no account database changes when it is asked. -/
def Host.known (h : Host) : LsaService × LsaAccounts × RightsTable :=
  (h.lsa, h.lsaAccounts, h.rights)

instance : Serving (SameBy Host.known) where
  of_serves := by
    rintro h h' ⟨_, _, _, _, rfl, _⟩
    rfl

namespace SecurityPolicy

variable {service : LsaService} {first : LsaAccounts} {used : String → Prop} {name : String}

theorem alike_requireExisting_abreast (store : IdentityStore) (i : Identity) :
    Alike Eq (Host.Abreast service first) (store.requireExisting i) (store.requireExisting i) := by
  intro x x' habreast
  have hknown : Leads (SameBy Host.known) (store.requireExisting i) :=
    IdentityStore.steady_requireExisting store i
  refine endsAlike_leads (store.alike_requireExisting_databases i x x' habreast.databases)
    hknown hknown fun y y' hdatabases hsame hsame' => ?_
  obtain ⟨hlsa, haccounts, -⟩ : y.lsa = x.lsa ∧ y.lsaAccounts = x.lsaAccounts ∧ y.rights = x.rights :=
    by simpa [SameBy, Host.known] using hsame
  exact habreast.of_held hdatabases hlsa (fun name text => by rw [haccounts])
    (congrArg (fun known => known.2.2) hsame')

theorem abreast_noted {x x' : Host} {e : Event} (he : Journal.invocations [e] = [])
    (habreast : x.Abreast service first x') : (x.noted e).Abreast service first (x'.noted e) :=
  (habreast.of_served (Host.served_noted he)).of_held
    (by rw [Host.databases_noted he, Host.databases_noted he, habreast.databases])
    rfl (fun _ _ => Iff.rfl) rfl

theorem alike_log_abreast (level : LogLevel) (source : LogSource) (message : String) :
    Alike Eq (Host.Abreast service first) (Run.log level source message)
      (Run.log level source message) :=
  alike_modify fun _ _ habreast => abreast_noted rfl habreast

section
variable (hkeeps : service.KeepsRights used) (hused : used name)
include hkeeps hused

theorem alike_accountRights_abreast :
    Alike Eq (Host.Abreast service first) (accountRights .lsa name) (accountRights .table name) := by
  intro x x' habreast
  obtain ⟨y, hended, hserved⟩ :=
    Lsa.gives_accountRights (S := x.served) hkeeps hused
      habreast.lsa (habreast.held_iff name) x rfl
  have hread : accountRights .lsa name x = .ok (x'.rights.heldBy name) y := hended
  rw [hread]
  exact .ok rfl (habreast.of_served hserved)

theorem alike_addAccountRights_abreast (privileges : PrivilegeSet) :
    Alike Eq (Host.Abreast service first) (addAccountRights .lsa name privileges)
      (addAccountRights .table name privileges) := by
  intro x x' habreast
  have hnoted := abreast_noted (e := .requested (.addPrivileges name privileges)) rfl habreast
  obtain ⟨y, hended, hserved⟩ := Lsa.gives_addAccountRights hkeeps hused hnoted.lsa privileges
    (x.noted (.requested (.addPrivileges name privileges))) rfl
  have hadded : addAccountRights .lsa name privileges x = .ok () y := hended
  have hput : ∃ t, x'.rights.add name privileges = .ok t := by
    rw [RightsTable.add, habreast.willing]
    exact ⟨_, rfl⟩
  obtain ⟨t, hadd⟩ := hput
  rw [hadded, addAccountRights_table_of_ok hadd]
  exact .ok rfl (hnoted.of_added hserved rfl hadd)

theorem alike_addMissing_abreast (privileges : PrivilegeSet) :
    Alike Eq (Host.Abreast service first) (addMissing .lsa name privileges)
      (addMissing .table name privileges) := by
  refine (alike_accountRights_abreast hkeeps hused).bind ?_
  rintro held _ rfl
  refine Alike.ite ((alike_log_abreast _ _ _).bind fun _ _ _ => alike_pure rfl) ?_
  exact (alike_log_abreast _ _ _).bind fun _ _ _ =>
    (alike_addAccountRights_abreast hkeeps hused _).bind fun _ _ _ => alike_pure rfl

end

/-- A grant ends alike on both, and they stay abreast. -/
theorem alike_grantCalled_abreast (hkeeps : service.KeepsRights used) (store : IdentityStore)
    {c : GrantCall} (hused : used c.identity.name) (hwilling : c.refusing = none) :
    Alike Eq (Host.Abreast service first) (grantCalled .lsa store c) (grantCalled .table store c) := by
  have hgrant : Alike Eq (Host.Abreast service first) (grant .lsa store c.identity c.privileges)
      (grant .table store c.identity c.privileges) :=
    (alike_requireExisting_abreast store c.identity).bind fun _ _ _ =>
      alike_mapFault (alike_addMissing_abreast hkeeps hused c.privileges) _
  intro x x' habreast
  have hallowed : (c.on x').rights = x'.rights := by
    rw [GrantCall.on, hwilling, ← habreast.willing]
  exact hgrant (c.on x) (c.on x')
    (habreast.of_held habreast.databases rfl (fun _ _ => Iff.rfl) hallowed)

/-- **A service that keeps rights is as good as the table.**  Calls of a grantor return the same sets on
both; after each of them the table shows what the service knows, and the service has lost nothing.  If
the accounts are there, every call returns. -/
theorem service_mirrors_table {used : String → Prop} {h : Host} (hkeeps : h.lsa.KeepsRights used)
    (store : IdentityStore) (cs : List GrantCall) (hused : ∀ c ∈ cs, used c.identity.name)
    (hwilling : ∀ c ∈ cs, c.refusing = none) :
    (rounds (grantCalled .lsa store) cs h).map Round.value? =
        (rounds (grantCalled .table store) cs h.inMemory).map Round.value? ∧
      List.Forall₂ (fun r r' => EndsAlike Eq (Host.Mirrors h.lsaAccounts) r.result r'.result)
        (rounds (grantCalled .lsa store) cs h)
        (rounds (grantCalled .table store) cs h.inMemory) ∧
      ((∀ c ∈ cs, store.Vouches c.identity h) →
        ∀ r ∈ rounds (grantCalled .lsa store) cs h, r.value?.isSome = true) := by
  have halike := forall₂_rounds
    (fun c hc => alike_grantCalled_abreast hkeeps store (hused c hc) (hwilling c hc))
    h.abreast_inMemory
  have hvalues := map_value?_of_forall₂ halike
  refine ⟨hvalues, halike.imp fun _ _ hends => ?_, fun hvouches r hr => ?_⟩
  · exact hends.imp (fun _ _ hvalue => hvalue) fun _ _ habreast => habreast.toMirrors
  · have hvalue : r.value? ∈ (rounds (grantCalled .lsa store) cs h).map Round.value? :=
      List.mem_map_of_mem hr
    rw [hvalues] at hvalue
    obtain ⟨r', hr', hsame⟩ := List.mem_map.1 hvalue
    have hthere : ∀ c ∈ cs, store.Vouches c.identity h.inMemory := fun c hc =>
      (hvouches c hc).of_asideRights rfl
    have hraises := raises_iff (of_mem_rounds hr').2 (vouches_before hthere hr')
    rw [hwilling r'.call (of_mem_rounds hr').1, hsame] at hraises
    exact Option.isSome_iff_ne_none.2 fun hnone => by simpa using (hraises.1 hnone).1

end SecurityPolicy

/-! ## Such a service -/

namespace LsaService

/-- A service that knows every account, by its name in any case. -/
def caseless : LsaService where
  sizeError _ _ _ := Lsa.insufficientBuffer
  sidError _ _ _ := none
  openStatus _ _ := Lsa.success
  listRights _ accounts name :=
    if accounts.rightsOf name = [] then (Lsa.nameNotFound, [])
    else (Lsa.success, counted (accounts.rightsOf name))
  addRights _ accounts name rights :=
    (Lsa.success, withRights accounts (Text.lower name) (rights.map CountedText.text))
  winError _ _ := 317

theorem map_text_counted (rights : List String) :
    (counted rights).map CountedText.text = rights := by
  rw [counted, List.map_map]
  exact (List.map_congr_left fun _ _ => CountedText.text_holding rfl).trans (List.map_id _)

theorem mem_rightsOf_withRights {accounts : LsaAccounts} {name other text : String}
    {rights : List String} :
    text ∈ (withRights accounts (Text.lower name) rights).rightsOf other ↔
      text ∈ accounts.rightsOf other ∨ Text.lower other = Text.lower name ∧ text ∈ rights := by
  unfold withRights LsaAccounts.rightsOf
  dsimp only
  rw [Table.get?_put]
  by_cases hsame : Text.lower name = Text.lower other
  · rw [if_pos hsame, ← hsame]
    by_cases hheld : text ∈ (accounts.get? (Text.lower name)).getD [] <;> simp [hheld]
  · simp [hsame, Ne.symm hsame]

theorem keepsRights_caseless : caseless.KeepsRights fun _ => True where
  sizes _ _ _ _ := rfl
  finds _ _ _ _ := rfl
  opens _ _ := rfl
  lists _ accounts name _ := by
    by_cases hnone : accounts.rightsOf name = []
    · exact .inr ⟨by simp [caseless, hnone], hnone⟩
    · refine .inl ⟨by simp [caseless, hnone], fun text => ?_⟩
      simp only [caseless, hnone, if_false, map_text_counted]
  adds _ _ _ _ _ := ⟨rfl, fun _ _ => mem_rightsOf_withRights⟩

end LsaService

namespace SecurityPolicy

/-- The service knows a right of bob that is no privilege of this library, and one that is. -/
def backupHost : Host where
  lsa := .caseless
  lsaAccounts := ⟨[("bob", ["SeBackupPrivilege", "SeTcbPrivilege"])]⟩
  accounts := .ofNames ["bob"] "carol"

/-- Bob is granted everything, twice. -/
def backupCalls : List GrantCall :=
  [{ identity := { name := "bob", present := true, named := by decide }, privileges := .runner },
   { identity := { name := "BOB", present := true, named := by decide }, privileges := .runner }]

/-- The first call adds the two privileges that bob lacks. -/
theorem service_mirrors_table_bob :
    backupHost.lsa.KeepsRights (fun _ => True) ∧ (∀ c ∈ backupCalls, c.refusing = none) ∧
      (rounds (grantCalled .lsa .table) backupCalls backupHost).map Round.value? =
        [some (.ofList [.assignPrimaryToken, .increaseQuota]), some {}] := by
  have hwilling : ∀ c ∈ backupCalls, c.refusing = none := by decide
  have hmirrors := service_mirrors_table LsaService.keepsRights_caseless .table backupCalls
    (h := backupHost) (fun _ _ => trivial) hwilling
  refine ⟨LsaService.keepsRights_caseless, hwilling, hmirrors.1.trans ?_⟩
  decide +kernel

end SecurityPolicy

end Provisioning
