/-
# `Provisioning.Proofs.Account.Resolved` — whether a resolved identity can be granted something

An identity that was resolved is marked as present, and every grant asks the
database once more whether its account is there.  How the identity came to be
selected says whether that was asked before:

    created       the account was not there, and now is
    explicit      the database was asked, and knows the account
    session       the database was not asked

The table knows the operator's own account from the start.  The users of a host
need not: the operator's name is taken from the environment.  And if nobody can
tell who sits at the terminal, nothing is resolved.

**Stated here.**  For every database and all account options: a resolved identity
is accepted on the host that resolving it has left, exactly if it is not the
operator's own or the database knows that, as every table that was made of names
does; resolving gains the database an account exactly if it is of source
`created`, that one, by one creation; and when it fails nothing was created
(`identify_usable`).
-/
import Provisioning.Proofs.Account.Table
import Provisioning.Proofs.Secrecy.Creation

namespace Provisioning

open Run

/-! ## What databases answer from -/

namespace Host

/-- All that a database of accounts answers from and changes: the table, the users, and the programs
with the file tree that they see and the starts that they have seen. -/
def records (h : Host) :
    AccountTable × List (String × Int) × Programs × Tree × List (Invocation × Option Int) :=
  (h.accounts, h.passwd, h.programs, h.tree, h.journal.programRuns)

variable {h h' : Host}

theorem records_logged (h : Host) (level : LogLevel) (source : LogSource) (message : String) :
    (h.logged level source message).records = h.records := by
  simp [records, logged, noted, Journal.programRuns]

theorem records_requested (h : Host) (c : Change) :
    (h.noted (.requested c)).records = h.records := by
  simp [records, noted, Journal.programRuns]

theorem eq_of_records (hsame : h'.records = h.records) :
    h'.accounts = h.accounts ∧ h'.passwd = h.passwd ∧ h'.programs = h.programs ∧
      h'.tree = h.tree ∧ h'.journal.programRuns = h.journal.programRuns := by
  simpa [records] using hsame

end Host

/-- The start of a program creates an account, if it succeeds. -/
def Invocation.createsAccount (i : Invocation) : Bool :=
  match i.args with
  | [_, "user", _, _, "/add"] => true
  | _ => false

namespace Journal

/-- The starts that created an account: the program has reported success. -/
def creations (j : Journal) : List Invocation :=
  (j.programRuns.filter fun r => r.1.createsAccount && r.2 == some 0).map Prod.fst

theorem creations_append (j es : Journal) :
    Journal.creations (j ++ es) = j.creations ++ Journal.creations es := by
  simp [creations, programRuns]

end Journal

/-- How the account management program is started to be asked about an account. -/
def IdentityStore.inquiry (executable : String) (limit : Number) (name : String) : Invocation :=
  ⟨[executable, "user", name], some limit⟩

namespace Programs

variable (programs : Programs) (executable : String) (limit : Number)

/-- What the account management program says of an account: whether there is one, if it ends. -/
def tellsOf (earlier : List Invocation) (name : String) (t : Tree) : Except Fault Bool :=
  (programs earlier (IdentityStore.inquiry executable limit name) t).1.map ProgramOutput.succeeded

/-- The account management program answers stably: asked again it says the same, and an account whose
creation it has reported is there. -/
structure AnswersStably : Prop where
  again : ∀ (earlier : List Invocation) (name : String) (t : Tree),
    programs.tellsOf executable limit (earlier ++ [IdentityStore.inquiry executable limit name]) name
        (programs earlier (IdentityStore.inquiry executable limit name) t).2 =
      programs.tellsOf executable limit earlier name t
  added : ∀ (earlier : List Invocation) (name password : String) (t t' : Tree)
    (out : ProgramOutput),
    programs earlier (IdentityStore.creation executable limit name password) t = (.ok out, t') →
      out.succeeded = true →
        programs.tellsOf executable limit
          (earlier ++ [IdentityStore.creation executable limit name password]) name t' = .ok true

end Programs

namespace IdentityStore

variable {store : IdentityStore} {name : String} {h h' h'' : Host}

/-- The database says, asked on the host `h`, that an account of that name exists. -/
def Knows (store : IdentityStore) (h : Host) (name : String) : Prop :=
  match store with
  | .table => h.accounts.has name = true
  | .netUser executable limit =>
    h.programs.tellsOf executable limit h.journal.invocations name h.tree = .ok true
  | .posix => (h.passwd.lookup name).isSome = true

/-- The database answers stably; only a program could do otherwise. -/
def Stable (store : IdentityStore) (programs : Programs) : Prop :=
  match store with
  | .netUser executable limit => programs.AnswersStably executable limit
  | _ => True

/-- From `h` to `h'` the database gained the accounts of a list, by one successful creation each, and
nothing else of it changed. -/
structure Gains (store : IdentityStore) (made : List (String × Credential)) (h h' : Host) :
    Prop where
  passwd : h'.passwd = h.passwd
  programs : h'.programs = h.programs
  entries :
    match store with
    | .table => h'.accounts = made.foldl (fun t m => t.withAccount m.1 m.2) h.accounts
    | .netUser executable limit =>
      h'.journal.creations =
        h.journal.creations ++ made.map fun m => creation executable limit m.1 m.2.expose
    | .posix => made = []

theorem knows_congr (hsame : h'.records = h.records) : store.Knows h' name ↔ store.Knows h name := by
  obtain ⟨haccounts, hpasswd, hprograms, htree, hruns⟩ := Host.eq_of_records hsame
  have hinvocations : h'.journal.invocations = h.journal.invocations :=
    congrArg (List.map Prod.fst) hruns
  unfold Knows
  rw [haccounts, hpasswd, hprograms, htree, hinvocations]

theorem gains_of_records (hsame : h'.records = h.records) : store.Gains [] h h' := by
  obtain ⟨haccounts, hpasswd, hprograms, -, hruns⟩ := Host.eq_of_records hsame
  refine ⟨hpasswd, hprograms, ?_⟩
  cases store with
  | table => exact haccounts
  | netUser executable limit => simp [Journal.creations, hruns]
  | posix => rfl

theorem Gains.trans {made made' : List (String × Credential)} (hfirst : store.Gains made h h')
    (hsecond : store.Gains made' h' h'') : store.Gains (made ++ made') h h'' := by
  refine ⟨hsecond.passwd.trans hfirst.passwd, hsecond.programs.trans hfirst.programs, ?_⟩
  have hentries := hfirst.entries
  have hentries' := hsecond.entries
  cases store with
  | table =>
      dsimp only at hentries hentries' ⊢
      rw [hentries', hentries, List.foldl_append]
  | netUser executable limit =>
      dsimp only at hentries hentries' ⊢
      rw [hentries', hentries, List.map_append, List.append_assoc]
  | posix =>
      dsimp only at hentries hentries' ⊢
      rw [hentries, hentries', List.append_nil]

/-! ## Asking -/

/-- How asking about an account ends, when it begins on the host `h`. -/
inductive AskEnds (store : IdentityStore) (name : String) (h : Host) :
    EStateM.Result Fault Host Bool → Prop where
  | answered {known : Bool} {h' : Host} (hanswer : known = true ↔ store.Knows h name)
      (hgains : store.Gains [] h h')
      (hagain : store.Stable h.programs → (store.Knows h' name ↔ store.Knows h name)) :
      AskEnds store name h (.ok known h')
  | unanswered {e : Fault} {h' : Host} (hunknown : ¬ store.Knows h name)
      (hgains : store.Gains [] h h') : AskEnds store name h (.error e h')

/-- Asking the account management program creates nothing. -/
theorem gains_inquiry {executable : String} {limit : Number} {t : Tree} {es : Journal}
    (hnone : Journal.creations es = []) :
    Gains (.netUser executable limit) [] h { h with tree := t, journal := h.journal ++ es } := by
  refine ⟨rfl, rfl, ?_⟩
  dsimp only
  rw [Journal.creations_append, hnone]
  rfl

theorem askEnds_program (executable : String) (limit : Number) (name : String) (h : Host) :
    AskEnds (.netUser executable limit) name h (exists? (.netUser executable limit) name h) := by
  have htold : ∀ {r t}, h.programs h.journal.invocations (inquiry executable limit name) h.tree =
      (r, t) → h.programs.tellsOf executable limit h.journal.invocations name h.tree =
        r.map ProgramOutput.succeeded := fun hended => by rw [Programs.tellsOf, hended]
  rcases hended : h.programs h.journal.invocations (inquiry executable limit name) h.tree with
    ⟨e | out, t⟩
  · have hasked : exists? (.netUser executable limit) name h = .error e _ :=
      bind_apply_of_error (command_of_error [] hended) _
    have hunknown : ¬ Knows (.netUser executable limit) h name := fun hknows =>
      nomatch (htold hended).symm.trans hknows
    exact hasked ▸ .unanswered hunknown (gains_inquiry rfl)
  · have hasked : exists? (.netUser executable limit) name h = .ok out.succeeded _ :=
      bind_apply_of_ok (command_of_ok [] hended) _
    have hanswer : out.succeeded = true ↔ Knows (.netUser executable limit) h name := by
      show _ ↔ h.programs.tellsOf executable limit h.journal.invocations name h.tree = .ok true
      rw [htold hended]
      exact ⟨congrArg Except.ok, Except.ok.inj⟩
    refine hasked ▸ .answered hanswer (gains_inquiry ?_) fun hstable => ?_
    · simp [Journal.creations, Journal.programRuns, startLine, endLine,
        Invocation.createsAccount]
    · have hagain := hstable.again h.journal.invocations name h.tree
      rw [hended] at hagain
      unfold Knows
      dsimp only
      rw [Journal.invocations_append]
      exact iff_of_eq (congrArg (· = Except.ok true) hagain)

theorem askEnds_exists? (store : IdentityStore) (name : String) (h : Host) :
    AskEnds store name h (store.exists? name h) := by
  cases store with
  | table => exact .answered Iff.rfl (gains_of_records rfl) fun _ => Iff.rfl
  | netUser executable limit => exact askEnds_program executable limit name h
  | posix => exact .answered Iff.rfl (gains_of_records rfl) fun _ => Iff.rfl

/-- A resolved identity is accepted exactly if the database knows its account. -/
theorem requireExisting_returns_iff {i : Identity} (hpresent : i.present = true) :
    (∃ h', store.requireExisting i h = .ok i h') ↔ store.Knows h i.name := by
  have hends := askEnds_exists? store i.name h
  rw [requireExisting, if_neg (by simp [hpresent])]
  cases hasked : store.exists? i.name h with
  | error e h₁ =>
      rw [hasked] at hends
      rw [bind_apply_of_error hasked]
      cases hends with
      | unanswered hunknown =>
          refine iff_of_false ?_ hunknown
          rintro ⟨h', hended⟩
          cases hended
  | ok known h₁ =>
      rw [hasked] at hends
      rw [bind_apply_of_ok hasked]
      cases hends with
      | answered hanswer =>
          cases known with
          | true => exact iff_of_true ⟨h₁, rfl⟩ (hanswer.1 rfl)
          | false =>
              refine iff_of_false ?_ fun hknows => Bool.false_ne_true (hanswer.2 hknows)
              rintro ⟨h', hended⟩
              cases hended

/-! ## Creating -/

/-- How creating an account ends, when it begins on the host `h`. -/
inductive CreateEnds (store : IdentityStore) (name : String) (credential : Credential) (h : Host) :
    EStateM.Result Fault Host Unit → Prop where
  | created {h' : Host} (hgains : store.Gains [(name, credential)] h h')
      (hknown : store.Stable h.programs → store.Knows h' name) :
      CreateEnds store name credential h (.ok () h')
  | failed {e : Fault} {h' : Host} (hgains : store.Gains [] h h') :
      CreateEnds store name credential h (.error e h')

theorem createEnds_table (name : String) (credential : Credential) (h : Host) :
    CreateEnds .table name credential h (create .table name credential h) := by
  have hcreate : create .table name credential h =
      (do
        let accounts ← Run.ofExcept (h.accounts.create name credential)
        modify fun h => { h with accounts } : Run Unit)
        (h.noted (.requested (.createAccount name))) := rfl
  rw [hcreate]
  cases hhas : h.accounts.has name with
  | true =>
      rw [AccountTable.create, if_pos hhas]
      exact .failed (gains_of_records (h.records_requested _))
  | false =>
      rw [AccountTable.create_of_new hhas]
      exact .created ⟨rfl, rfl, rfl⟩ fun _ => AccountTable.has_withAccount_self _ _ _

theorem createEnds_program (executable : String) (limit : Number) (name : String)
    (credential : Credential) (h : Host) :
    CreateEnds (.netUser executable limit) name credential h
      (create (.netUser executable limit) name credential h) := by
  obtain ⟨password⟩ := credential
  have hgains : ∀ {t status es made}, Journal.creations
      (.requested (.createAccount name) ::
        startLine [executable, "user", name, password, "/add"] [password] ::
        .started (creation executable limit name password) status :: es) = made.map
          (fun m : String × Credential => creation executable limit m.1 m.2.expose) →
      Gains (.netUser executable limit) made h
        (afterCreation h t executable limit name password status es) := by
    intro t status es made hmade
    refine ⟨rfl, rfl, ?_⟩
    dsimp only [afterCreation]
    rw [Journal.creations_append, hmade]
  rcases hended : h.programs h.journal.invocations (creation executable limit name password) h.tree
    with ⟨e | out, t⟩
  · rw [create_of_fault hended]
    exact .failed (hgains rfl)
  · rw [create_of_output hended]
    dsimp only
    cases hsucceeded : out.succeeded with
    | false =>
        have hstatus : out.status ≠ 0 := by simpa [ProgramOutput.succeeded] using hsucceeded
        refine .failed (hgains ?_)
        simp [Journal.creations, Journal.programRuns, startLine, creationEnded, endLine, hsucceeded,
          hstatus]
    | true =>
        have hstatus : out.status = 0 := by simpa [ProgramOutput.succeeded] using hsucceeded
        refine .created (hgains ?_) fun hstable => ?_
        · simp [Journal.creations, Journal.programRuns, startLine, creationEnded, endLine,
            hsucceeded, hstatus, creation, Invocation.createsAccount, Credential.expose]
        · have hadded := hstable.added h.journal.invocations name password h.tree t out hended
            hsucceeded
          have hinvocations : Journal.invocations (h.journal ++ .requested (.createAccount name) ::
              startLine [executable, "user", name, password, "/add"] [password] ::
              .started (creation executable limit name password) (some out.status) ::
                creationEnded executable name out) =
              h.journal.invocations ++ [creation executable limit name password] := by
            simp [Journal.invocations, Journal.programRuns, startLine, creationEnded, endLine,
              hsucceeded]
          show Programs.tellsOf _ _ _ (Journal.invocations _) _ _ = _
          rw [afterCreation, hinvocations]
          exact hadded

theorem createEnds_create (store : IdentityStore) (name : String) (credential : Credential)
    (h : Host) : CreateEnds store name credential h (store.create name credential h) := by
  cases store with
  | table => exact createEnds_table name credential h
  | netUser executable limit => exact createEnds_program executable limit name credential h
  | posix => exact .failed (gains_of_records (h.records_requested _))

/-! ## The operator's own account -/

/-- A table that was made of names knows the operator. -/
theorem knows_sessionUser_ofNames {names : List String} {user : String}
    (hnames : h.accounts = .ofNames names user) : Knows .table h h.accounts.sessionUser := by
  show h.accounts.has h.accounts.sessionUser = true
  rw [hnames]
  exact AccountTable.has_sessionUser_ofNames names user

/-- And it goes on knowing the operator, whatever accounts it gains. -/
theorem Gains.knows_sessionUser {made : List (String × Credential)}
    (hgains : Gains .table made h h') (hknows : Knows .table h h.accounts.sessionUser) :
    Knows .table h' h'.accounts.sessionUser := by
  have hentries : h'.accounts = made.foldl (fun t m => t.withAccount m.1 m.2) h.accounts :=
    hgains.entries
  have hkept : ∀ (made : List (String × Credential)) (t : AccountTable),
      t.has t.sessionUser = true →
        (made.foldl (fun t m => t.withAccount m.1 m.2) t).has
          (made.foldl (fun t m => t.withAccount m.1 m.2) t).sessionUser = true := by
    intro made
    induction made with
    | nil => exact fun t hhas => hhas
    | cons m made ih =>
        intro t hhas
        refine ih _ ?_
        rw [AccountTable.sessionUser_withAccount]
        exact AccountTable.has_withAccount_of_has hhas m.1 m.2
  show h'.accounts.has h'.accounts.sessionUser = true
  rw [hentries]
  exact hkept made h.accounts hknows

/-- The database is the table, which was made of names on some host, and has gained what accounts it
has beyond these. -/
def MadeOfNames (store : IdentityStore) (h : Host) : Prop :=
  store = .table ∧ ∃ (h₀ : Host) (names : List String) (user : String)
    (made : List (String × Credential)), h₀.accounts = .ofNames names user ∧ Gains .table made h₀ h

theorem MadeOfNames.knows_operator (hnames : store.MadeOfNames h)
    (hoperator : store.operator h = .ok name) : store.Knows h name := by
  obtain ⟨rfl, h₀, names, user, made, haccounts, hgains⟩ := hnames
  obtain rfl : h.accounts.sessionUser = name := Except.ok.inj hoperator
  exact hgains.knows_sessionUser (knows_sessionUser_ofNames haccounts)

/-! ## Resolving -/

/-- The account of the options: created if that is wanted, and otherwise looked up. -/
def identify (store : IdentityStore) (name : Option String) (credential : Option Credential)
    (create : Bool) : Run Identity :=
  if create then store.resolveOrCreate name credential else store.resolve name

/-- How the account of the options comes about, on the host `h`. -/
inductive IdentifyEnds (store : IdentityStore) (name : Option String)
    (credential : Option Credential) (create : Bool) (h : Host) :
    EStateM.Result Fault Host Identity → Prop where
  /-- The operator's own account, which is not asked about. -/
  | session {i : Identity} {h' : Host} (hpresent : i.present = true) (hsource : i.source = .session)
      (hoperator : store.operator h = .ok i.name) (hsame : h'.records = h.records) :
      IdentifyEnds store name credential create h (.ok i h')
  /-- The database was asked, and knows the account. -/
  | named {i : Identity} {h' : Host} (hpresent : i.present = true) (hsource : i.source = .explicit)
      (hknown : store.Stable h.programs → store.Knows h' i.name) (hgains : store.Gains [] h h') :
      IdentifyEnds store name credential create h (.ok i h')
  /-- The database was asked, did not know the account, and now has it. -/
  | created {i : Identity} {password : Credential} {h' : Host} (hpresent : i.present = true)
      (hsource : i.source = .created) (hwanted : create = true) (hname : name = some i.name)
      (hpassword : credential = some password) (hnew : ¬ store.Knows h i.name)
      (hknown : store.Stable h.programs → store.Knows h' i.name)
      (hgains : store.Gains [(i.name, password)] h h') :
      IdentifyEnds store name credential create h (.ok i h')
  | failed {e : Fault} {h' : Host} (hgains : store.Gains [] h h') :
      IdentifyEnds store name credential create h (.error e h')

section
variable {credential : Option Credential} {create : Bool}

/-- The host on which an account is known, after a line was logged. -/
theorem identifyEnds_named (hgains : store.Gains [] h h')
    (hknown : store.Stable h.programs → store.Knows h' name) {options : Option String}
    (hsame : h''.records = h'.records) :
    IdentifyEnds store options credential create h
      (Run.ofExcept (Identity.make? name true .explicit none) h'') := by
  have hall : store.Gains [] h h'' := hgains.trans (gains_of_records hsame)
  by_cases hname : name = ""
  · subst hname
    exact .failed hall
  · rw [Identity.make?_of_ne hname]
    exact .named rfl rfl (fun hstable => (knows_congr hsame).2 (hknown hstable)) hall

theorem identifyEnds_resolve (store : IdentityStore) (name : Option String) (h : Host) :
    IdentifyEnds store name credential create h (store.resolve name h) := by
  unfold resolve
  cases name with
  | none =>
      dsimp only
      have hsession := sessionUser_eq store h
      cases hoperator : store.operator h with
      | error f =>
          rw [hoperator] at hsession
          rw [bind_apply_of_error hsession]
          exact .failed (gains_of_records rfl)
      | ok session =>
          rw [hoperator] at hsession
          rw [bind_apply_of_ok hsession, log_bind]
          by_cases hempty : session = ""
          · rw [hempty]
            exact .failed (gains_of_records (h.records_logged _ _ _))
          · rw [Identity.make?_of_ne hempty]
            exact .session rfl rfl hoperator (h.records_logged _ _ _)
  | some name =>
      have hends := askEnds_exists? store name h
      dsimp only
      cases hasked : store.exists? name h with
      | error e h₁ =>
          rw [hasked] at hends
          rw [bind_apply_of_error hasked]
          cases hends with
          | unanswered _ hgains => exact .failed hgains
      | ok known h₁ =>
          rw [hasked] at hends
          rw [bind_apply_of_ok hasked]
          cases hends with
          | answered hanswer hgains hagain =>
              cases known with
              | false => exact .failed hgains
              | true =>
                  exact identifyEnds_named hgains
                    (fun hstable => (hagain hstable).2 (hanswer.1 rfl)) rfl

/-- An account that is not known, and that is to be created with a password. -/
theorem identifyEnds_created {options : Option String} {password : Credential}
    (hname : options = some name) (hpassword : credential = some password) (hne : name ≠ "")
    (hnew : ¬ store.Knows h name) (hgains : store.Gains [] h h') :
    IdentifyEnds store options credential true h
      ((do
        store.create name password
        Run.ofExcept (Identity.make? name true .created (some password)) : Run Identity) h') := by
  have hends := createEnds_create store name password h'
  cases hcreated : store.create name password h' with
  | error e h'' =>
      rw [hcreated] at hends
      rw [bind_apply_of_error hcreated]
      cases hends with
      | failed hnone => exact .failed (hgains.trans hnone)
  | ok u h'' =>
      rw [hcreated] at hends
      rw [bind_apply_of_ok hcreated, Identity.make?_of_ne hne]
      cases hends with
      | created hmade hknown =>
          exact .created rfl rfl rfl hname hpassword hnew
            (fun hstable => hknown (hgains.programs ▸ hstable)) (hgains.trans hmade)

theorem identifyEnds_resolveOrCreate (store : IdentityStore) (name : Option String)
    (credential : Option Credential) (h : Host) :
    IdentifyEnds store name credential true h (store.resolveOrCreate name credential h) := by
  unfold resolveOrCreate
  cases hcredential : credential.filter Credential.isGiven with
  | none => exact .failed (gains_of_records rfl)
  | some password =>
      have hpassword : credential = some password := (Option.filter_eq_some_iff.1 hcredential).1
      cases hname : given name with
      | none => exact .failed (gains_of_records rfl)
      | some n =>
          obtain ⟨hn, hne⟩ := given_eq_some_iff.1 hname
          have hends := askEnds_exists? store n h
          dsimp only
          cases hasked : store.exists? n h with
          | error e h₁ =>
              rw [hasked] at hends
              rw [bind_apply_of_error hasked]
              cases hends with
              | unanswered _ hgains => exact .failed hgains
          | ok known h₁ =>
              rw [hasked] at hends
              rw [bind_apply_of_ok hasked]
              cases hends with
              | answered hanswer hgains hagain =>
                  cases known with
                  | true =>
                      exact identifyEnds_named hgains
                        (fun hstable => (hagain hstable).2 (hanswer.1 rfl)) (h₁.records_logged _ _ _)
                  | false =>
                      exact identifyEnds_created hn hpassword hne
                        (fun hknows => nomatch hanswer.2 hknows)
                        (hgains.trans (gains_of_records (h₁.records_logged _ _ _)))

theorem identifyEnds_identify (store : IdentityStore) (name : Option String)
    (credential : Option Credential) (create : Bool) (h : Host) :
    IdentifyEnds store name credential create h (store.identify name credential create h) := by
  cases create with
  | false => exact identifyEnds_resolve store name h
  | true => exact identifyEnds_resolveOrCreate store name credential h

end

/-- **What a resolved identity is good for.**  Over a database that answers stably: an identity that
was resolved is accepted on the host that this has left, unless it is the operator's own and the
database does not know that, which the table that was made of names does.  The database has gained
nothing, or, if the source is `created`, the account of the given name, which it did not know before,
by one creation.  If no identity was resolved, it has gained nothing. -/
theorem identify_usable (store : IdentityStore) (name : Option String)
    (credential : Option Credential) (create : Bool) (h : Host)
    (hstable : store.Stable h.programs) :
    (∀ i h', store.identify name credential create h = .ok i h' →
      ((∃ h'', store.requireExisting i h' = .ok i h'') ↔
        (i.source = .session → store.Knows h i.name)) ∧
      (i.source = .session → store.operator h = .ok i.name) ∧
      (store.MadeOfNames h → ∃ h'', store.requireExisting i h' = .ok i h'') ∧
      (i.source ≠ .created → store.Gains [] h h') ∧
      (i.source = .created → create = true ∧ name = some i.name ∧ ¬ store.Knows h i.name ∧
        ∃ password, credential = some password ∧ store.Gains [(i.name, password)] h h')) ∧
    ∀ e h', store.identify name credential create h = .error e h' → store.Gains [] h h' := by
  have hends := identifyEnds_identify store name credential create h
  constructor
  · intro i h' hresolved
    rw [hresolved] at hends
    cases hends with
    | session hpresent hsource hoperator hsame =>
        rw [requireExisting_returns_iff hpresent, hsource, knows_congr hsame]
        exact ⟨⟨fun hknows _ => hknows, fun hknows => hknows rfl⟩, fun _ => hoperator,
          fun hnames => hnames.knows_operator hoperator, fun _ => gains_of_records hsame, nofun⟩
    | named hpresent hsource hknown hgains =>
        rw [requireExisting_returns_iff hpresent, hsource]
        have hknows := hknown hstable
        exact ⟨⟨fun _ => nofun, fun _ => hknows⟩, nofun, fun _ => hknows, fun _ => hgains, nofun⟩
    | created hpresent hsource hwanted hname hpassword hnew hknown hgains =>
        rw [requireExisting_returns_iff hpresent, hsource]
        have hknows := hknown hstable
        exact ⟨⟨fun _ => nofun, fun _ => hknows⟩, nofun, fun _ => hknows, fun hne => absurd rfl hne,
          fun _ => ⟨hwanted, hname, hnew, _, hpassword, hgains⟩⟩
  · intro e h' hfailed
    rw [hfailed] at hends
    cases hends with
    | failed hgains => exact hgains

end IdentityStore

/-! ## A program that keeps accounts -/

/-- The start creates an account of that name. -/
def Invocation.adds (i : Invocation) (name : String) : Bool :=
  match i.args with
  | [_, "user", added, _, "/add"] => added == name
  | _ => false

namespace Programs

/-- An account management program that knows the accounts of a list and those created since, and
creates no account twice. -/
def keeping (accounts : List String) : Programs := fun earlier i t =>
  let there (name : String) : Bool := accounts.contains name || earlier.any (·.adds name)
  match i.args with
  | [_, "user", name] => (.ok { status := if there name then 0 else 2 }, t)
  | [_, "user", name, _, "/add"] => (.ok { status := if there name then 2 else 0 }, t)
  | _ => (.ok {}, t)

theorem answersStably_keeping (accounts : List String) (executable : String) (limit : Number) :
    (keeping accounts).AnswersStably executable limit where
  again earlier name t := by
    simp [tellsOf, keeping, IdentityStore.inquiry, Invocation.adds]
  added earlier name password t t' out hended hsucceeded := by
    simp [tellsOf, keeping, IdentityStore.inquiry, IdentityStore.creation, Invocation.adds, Except.map,
      ProgramOutput.succeeded]

end Programs

namespace IdentityStore

/-- An account that the program does not know is created, and accepted. -/
theorem identify_usable_carol :
    let store : IdentityStore := .netUser "net" (.whole 60)
    let h : Host := { programs := .keeping ["operator"] }
    store.Stable h.programs ∧ ∃ i h', i.source = .created ∧
      store.identify (some "carol") (some ⟨"S3cret!"⟩) true h = .ok i h' ∧
      ∃ h'', store.requireExisting i h' = .ok i h'' := by
  intro store h
  have hstable : store.Stable h.programs := Programs.answersStably_keeping _ _ _
  refine ⟨hstable, ?_⟩
  obtain ⟨i, h', hresolved, hsource⟩ : ∃ i h',
      store.identify (some "carol") (some ⟨"S3cret!"⟩) true h = .ok i h' ∧ i.source = .created := by
    decide +kernel
  obtain ⟨husable, -⟩ := identify_usable store (some "carol") (some ⟨"S3cret!"⟩) true h hstable
  refine ⟨i, h', hsource, hresolved, (husable i h' hresolved).1.2 fun hsession => ?_⟩
  rw [hsource] at hsession
  cases hsession

/-- The operator's own account need not be usable: the environment may name a user who is none. -/
theorem not_always_accepted :
    ¬ ∀ (store : IdentityStore) (name : Option String) (credential : Option Credential)
        (create : Bool) (h h' : Host) (i : Identity), store.Stable h.programs →
      store.identify name credential create h = .ok i h' →
      ∃ h'', store.requireExisting i h' = .ok i h'' := by
  intro husable
  let h : Host := { environment := .ofRows [("SUDO_USER", "ghost")] }
  obtain ⟨i, h', hresolved, hpresent, hunknown⟩ : ∃ i h',
      posix.identify none none false h = .ok i h' ∧
        i.present = true ∧ (h'.passwd.lookup i.name).isSome = false := by decide +kernel
  have hknows : Knows .posix h' i.name :=
    (requireExisting_returns_iff hpresent).1 (husable .posix none none false h h' i trivial hresolved)
  exact Bool.false_ne_true (hunknown.symm.trans hknows)

end IdentityStore

end Provisioning
